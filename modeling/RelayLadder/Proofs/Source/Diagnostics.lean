import RelayLadder.Proofs.Engine.Coherence
import RelayLadder.Proofs.Source.Numbering

/-!
Faults of a program that was read from a source. Whatever has been asked of the engine, a
fault that it latches or answers with names the very line of the source that holds the
instruction, and its index counts the lines before it that are not blank.
-/

namespace RelayLadder

/-- The fault that a failure is about. -/
def Failure.cause? : Failure → Option Fault
  | .fault cause | .halted cause => some cause
  | .stepLimit _ | .outOfBounds _ | .tableTooWide _ _ | .unallocatable => none

namespace Engine

variable {engine next : Engine}

/-- The fault that a failure is about is latched in the engine that failed. -/
def Accounted {Value : Type} (outcome : Except Failure Value × Engine) : Prop :=
  ∀ failure, outcome.1 = .error failure →
    ∀ cause ∈ failure.cause?, outcome.2.fault = some cause

section Accounted

variable {Value Other : Type}

@[simp] theorem accounted_ok (value : Value) (engine : Engine) :
    Accounted (.ok value, engine) := by
  simp [Accounted]

@[simp] theorem accounted_error (failure : Failure) (engine : Engine) :
    Accounted ((.error failure, engine) : Except Failure Value × Engine) ↔
      ∀ cause ∈ failure.cause?, engine.fault = some cause := by
  simp [Accounted]

theorem Accounted.map {outcome : Except Failure Value × Engine} (accounted : Accounted outcome)
    (change : Value → Other) : Accounted (outcome.1.map change, outcome.2) := by
  rcases outcome with ⟨failure | value, engine⟩
  · simpa [Except.map] using accounted
  · simp [Except.map]

theorem accounted_step (engine : Engine) : Accounted engine.step := by
  cases latched : engine.fault with
  | some fault => simp [step_of_fault latched, Failure.cause?, latched]
  | none =>
    cases decided : engine.objection? with
    | none => simp [step_of_accepted latched decided]
    | some kind => simp [step_of_objection latched decided, Failure.cause?, latch]

theorem accounted_stepMany (count : Nat) (engine : Engine) :
    Accounted (engine.stepMany count) := by
  induction count generalizing engine with
  | zero => exact accounted_ok () engine
  | succ count inductionHypothesis =>
    have first := accounted_step engine
    rcases step : engine.step with ⟨failure | _, next⟩
    · rw [step] at first
      simpa [stepMany_of_step_error step] using first
    · rw [stepMany_of_step_ok step]
      exact inductionHypothesis next

theorem accounted_scanOn (limit remaining taken : Nat) (engine : Engine) :
    Accounted (engine.scanOn limit remaining taken) := by
  induction remaining generalizing engine taken with
  | zero => simp [scanOn, Failure.cause?]
  | succ remaining inductionHypothesis =>
    have first := accounted_step engine
    rcases step : engine.step with ⟨failure | _, next⟩
    · rw [step] at first
      simpa [scanOn_of_step_error step] using first
    · rw [scanOn_of_step_ok step]
      split
      · exact accounted_ok _ next
      · exact inductionHypothesis (taken + 1) next

/-- No request is refused with a fault that the engine does not hold. -/
theorem accounted_serve (engine : Engine) (request : Request) :
    Accounted (engine.serve request) := by
  cases request with
  | step => exact (accounted_step engine).map _
  | stepMany count => exact (accounted_stepMany count engine).map _
  | scan => exact (accounted_scanOn _ _ 0 engine).map _
  | scanWithin limit => exact (accounted_scanOn limit limit 0 engine).map _
  | read address =>
    by_cases inside : address < engine.memory.cells <;>
      simp [serve, Engine.read, Memory.read_eq, inside, Except.mapError, Except.map,
        Failure.cause?]
  | setInput address value =>
    rw [serve_setInput]
    split <;> simp [Failure.cause?]
  | clearMemory => exact accounted_ok _ _
  | reset => exact accounted_ok _ _

end Accounted

/-- A fault that the engine has latched, or that a request is refused with. -/
def Reports (engine : Engine) (fault : Fault) : Prop :=
  engine.fault = some fault ∨
    ∃ request, (engine.serve request).1 = .error (.fault fault) ∨
      (engine.serve request).1 = .error (.halted fault)

theorem Reports.latched {program : Program} {config : Config} {requests : List Request}
    {fault : Fault} (reports : ((start program config).serveAll requests).Reports fault) :
    ∃ history, ((start program config).serveAll history).fault = some fault := by
  rcases reports with latched | ⟨request, refused⟩
  · exact ⟨requests, latched⟩
  · have accounted := accounted_serve ((start program config).serveAll requests) request
    refine ⟨requests ++ [request], ?_⟩
    rw [serveAll, List.foldl_append]
    rcases refused with faulted | halted
    · exact accounted _ faulted fault rfl
    · exact accounted _ halted fault rfl

end Engine

namespace Source

variable {entries : List Entry} {before after : List Statement} {statement : Statement}

theorem Judged.renumber {line : Nat} {text : List Char} {instruction : Instruction}
    (judged : Judged line text (.ok instruction)) (other : Nat) :
    Judged other text (.ok instruction) := by
  cases judged with
  | bare form => exact .bare form
  | addressed form small => exact .addressed form small

theorem exists_entry_of_statement
    (reads : List.Forall₂ Entry.Reads entries (before ++ statement :: after)) :
    ∃ earlier entry later, entries = earlier ++ entry :: later ∧
      List.Forall₂ Entry.Reads earlier before ∧ entry.Reads statement := by
  have front := List.forall₂_take_append _ _ _ reads
  have back := List.forall₂_drop_append _ _ _ reads
  obtain ⟨entry, later, read, -, rest⟩ := List.forall₂_cons_right_iff.mp back
  refine ⟨entries.take before.length, entry, later, ?_, front, read⟩
  rw [← rest, List.take_append_drop]

/-- Lines that give statements before the end of a scan do not end it. -/
theorem ordinary_of_reads (reads : List.Forall₂ Entry.Reads entries before)
    (ordinary : ∀ statement ∈ before, statement.instruction.opcode ≠ .finish) :
    ∀ entry ∈ entries, ∃ instruction, Judged entry.line entry.text (.ok instruction) ∧
      instruction.opcode ≠ .finish := by
  induction reads with
  | nil => simp
  | cons read others inductionHypothesis =>
    obtain ⟨here, further⟩ := List.forall_mem_cons.mp ordinary
    exact List.forall_mem_cons.mpr ⟨⟨_, read.2, here⟩, inductionHypothesis further⟩

end Source

/-- Faults point at the source. The line that a fault names is not blank and holds the
instruction that faulted; before it come as many lines that are not blank as its index
says, and none of them ends a scan. -/
theorem Engine.fault_points_at_line {source : String} {program : Program}
    (parsed : Source.parse source = .ok program) {config : Config} {requests : List Request}
    {fault : Fault} (reports : ((start program config).serveAll requests).Reports fault) :
    ∃ above raw below, Source.lines source = above ++ raw :: below ∧
      fault.line = above.length + 1 ∧ Text.trim raw ≠ [] ∧
      (∀ line, Source.parseLine line (Text.trim raw) = .ok fault.instruction) ∧
      (above.countP fun other => Text.trim other ≠ []) = fault.index ∧
      ∀ other ∈ above, Text.trim other ≠ [] →
        ∃ instruction, (∀ line, Source.parseLine line (Text.trim other) = .ok instruction) ∧
          instruction.opcode ≠ .finish := by
  obtain ⟨history, latched⟩ := reports.latched
  obtain ⟨inside, listed, -, -⟩ := (Coherent.of_history program config history).halted _ latched
  have split := Program.split_of_get? listed
  have ordinary := program.ordinary_before inside
  have reads := Source.parse_eq_ok_iff.mp parsed
  rw [split] at reads
  obtain ⟨earlier, entry, later, entries, front, read⟩ := Source.exists_entry_of_statement reads
  obtain ⟨above, raw, below, lines, entriesAbove, rfl, written⟩ :=
    Source.exists_line_of_entry entries
  refine ⟨above, raw, below, lines, ?line, written, ?instruction, ?index, ?before⟩
  case line => exact read.1.trans (Nat.add_comm 1 above.length)
  case instruction =>
    intro line
    exact (read.2.renumber line).parseLine_eq
  case index =>
    rw [← Source.length_entriesFrom 1 above, entriesAbove, front.length_eq, List.length_take]
    apply Nat.min_eq_left
    exact Nat.le_trans (Nat.le_of_lt inside) program.scanLength_le
  case before =>
    intro other member unblank
    obtain ⟨entry, found, text⟩ := Source.exists_entry_of_line member unblank
    rw [entriesAbove] at found
    obtain ⟨instruction, judged, continues⟩ := Source.ordinary_of_reads front ordinary entry found
    rw [text] at judged
    refine ⟨instruction, ?_, continues⟩
    intro line
    exact (judged.renumber line).parseLine_eq

/-- A fault in the second scan of a source with blank lines, reported again after it. -/
theorem Engine.fault_points_at_line_below_blanks :
    let source := "\n LD M001\n\t\n\nOUT  M001\nLDNOT M000\nEND\nORSTACK"
    let program : Program :=
      ⟨#[⟨2, ⟨.load false, some 1⟩⟩, ⟨5, ⟨.out, some 1⟩⟩, ⟨6, ⟨.load true, some 0⟩⟩,
        ⟨7, ⟨.finish, none⟩⟩, ⟨8, ⟨.merge .or, none⟩⟩], by decide⟩
    let engine := (start program { bankSize := 1 }).serveAll [.setInput 1 true, .scan, .scan]
    let fault : Fault := ⟨1, 5, ⟨.out, some 1⟩, .stack ⟨.exactly 1, 2⟩⟩
    Source.parse source = .ok program ∧ (engine.serve .step).1 = .error (.halted fault) ∧
      ∃ above raw below, Source.lines source = above ++ raw :: below ∧ 5 = above.length + 1 ∧
        (∀ line, Source.parseLine line (Text.trim raw) = .ok ⟨.out, some 1⟩) ∧
        (above.countP fun other => Text.trim other ≠ []) = 1 := by
  intro source program engine fault
  have parsed : Source.parse source = .ok program := by decide +kernel
  have refused : (engine.serve .step).1 = .error (.halted fault) := by decide
  have reports : engine.Reports fault := .inr ⟨.step, .inr refused⟩
  obtain ⟨above, raw, below, lines, line, -, instruction, index, -⟩ :=
    fault_points_at_line parsed reports
  exact ⟨parsed, refused, above, raw, below, lines, line, instruction, index⟩

end RelayLadder
