import RelayLadder.Proofs.Engine.Coherence
import RelayLadder.Proofs.Engine.Latch

/-!
Scans without a limit. A scan has no bound of its own: it goes on until the index is back
at the start. After any history it ends all the same, because every step inside the body
moves on by one, and the number of steps that it takes is known beforehand.
-/

namespace RelayLadder

namespace Engine

/-- The course of a scan that no limit cuts short: how many instructions it tries, and
how the last of them ends it. -/
inductive Course : Engine → (count : Nat) → Except Failure Unit × Engine → Prop where
  | fails {engine next : Engine} {failure : Failure}
      (step : engine.step = (.error failure, next)) : Course engine 1 (.error failure, next)
  | completes {engine next : Engine} (step : engine.step = (.ok (), next))
      (returned : next.pc = 0) : Course engine 1 (.ok (), next)
  | continues {engine next : Engine} {count : Nat} {outcome : Except Failure Unit × Engine}
      (step : engine.step = (.ok (), next)) (unfinished : next.pc ≠ 0)
      (rest : Course next count outcome) : Course engine (count + 1) outcome

namespace Course

variable {engine final : Engine} {count : Nat} {result : Except Failure Unit}

theorem count_pos {outcome : Except Failure Unit × Engine}
    (course : engine.Course count outcome) : 0 < count := by
  cases course <;> simp

/-- A limit that allows the whole course makes no difference. -/
theorem scanOn_eq {outcome : Except Failure Unit × Engine} (course : engine.Course count outcome)
    {remaining : Nat} (enough : count ≤ remaining) (limit taken : Nat) :
    engine.scanOn limit remaining taken =
      (outcome.1.map fun _ => taken + count, outcome.2) := by
  induction course generalizing remaining taken with
  | fails step =>
    obtain ⟨remaining, rfl⟩ := Nat.exists_eq_add_one.mpr enough
    exact scanOn_of_step_error step limit remaining taken
  | completes step returned =>
    obtain ⟨remaining, rfl⟩ := Nat.exists_eq_add_one.mpr enough
    simp [scanOn_of_step_ok step, returned, Except.map]
  | @continues engine next count outcome step unfinished rest inductionHypothesis =>
    obtain ⟨remaining, rfl⟩ := Nat.exists_eq_add_one.mpr (Nat.lt_of_lt_of_le (by simp) enough)
    have further := inductionHypothesis (Nat.le_of_succ_le_succ enough) (taken + 1)
    have total : taken + 1 + count = taken + (count + 1) := by omega
    simpa [scanOn_of_step_ok step, unfinished, total] using further

theorem scanWithin_eq (course : engine.Course count (result, final)) {limit : Nat}
    (enough : count ≤ limit) :
    engine.scanWithin limit = (result.map fun _ => count, final) := by
  simpa [scanWithin] using course.scanOn_eq enough limit 0

/-- Inside the body every step moves on or completes the scan, so the scan ends. -/
theorem exists_of_inside (running : engine.fault = none)
    (inside : engine.pc < engine.program.body.length) :
    ∃ count outcome, engine.Course count outcome := by
  -- The statements that are still ahead grow fewer.
  induction ahead : engine.program.body.length - engine.pc generalizing engine with
  | zero => omega
  | succ fewer inductionHypothesis =>
    cases decided : engine.objection? with
    | some kind => exact ⟨1, _, .fails (step_of_objection running decided)⟩
    | none =>
      have step := step_of_accepted running decided
      rcases pc_stepped_of_inside inside with ⟨moved, following⟩ | ⟨returned, -⟩
      · have unfinished : engine.stepped.pc ≠ 0 := by omega
        have stillRunning : engine.stepped.fault = none := running
        have left : engine.stepped.program.body.length - engine.stepped.pc = fewer := by
          simp only [program_stepped, moved]
          omega
        obtain ⟨count, outcome, rest⟩ :=
          inductionHypothesis stillRunning (inside_stepped inside) left
        exact ⟨count + 1, outcome, .continues step unfinished rest⟩
      · exact ⟨1, _, .completes step returned⟩

/-- What a course leaves in the counters. It completes the scan with the last statement of
the body, or one of the statements ahead faults and the others before it have run. -/
theorem counters {outcome : Except Failure Unit × Engine} (course : engine.Course count outcome)
    (running : engine.fault = none) (inside : engine.pc < engine.program.body.length) :
    (outcome.1 = .ok () ∧ engine.pc + count = engine.program.body.length ∧ outcome.2.pc = 0 ∧
        outcome.2.steps = engine.steps + count ∧ outcome.2.scans = engine.scans + 1) ∨
      ∃ fault, outcome.1 = .error (.fault fault) ∧ engine.pc + count = fault.index + 1 ∧
        fault.index < engine.program.body.length ∧
        outcome.2.steps + 1 = engine.steps + count ∧ outcome.2.scans = engine.scans := by
  induction course with
  | fails step =>
    obtain ⟨kind, rfl, rfl⟩ := exists_objection_of_step_error running step
    exact .inr ⟨_, rfl, rfl, inside, rfl, rfl⟩
  | @completes engine next step returned =>
    obtain ⟨-, -, rfl⟩ := step_eq_ok_iff.mp step
    rcases pc_stepped_of_inside inside with ⟨moved, -⟩ | ⟨-, last⟩
    · omega
    · refine .inl ⟨rfl, last, returned, steps_stepped engine, ?_⟩
      simp [scans_stepped, returned]
  | @continues engine next count outcome step unfinished rest inductionHypothesis =>
    obtain ⟨-, -, rfl⟩ := step_eq_ok_iff.mp step
    have steps := steps_stepped engine
    have scans : engine.stepped.scans = engine.scans := by simp [scans_stepped, unfinished]
    rcases pc_stepped_of_inside inside with ⟨moved, -⟩ | ⟨returned, -⟩
    · have stillRunning : engine.stepped.fault = none := running
      rcases inductionHypothesis stillRunning (inside_stepped inside) with
        ⟨completed, whole, start, taken, more⟩ | ⟨fault, failed, place, listed, taken, same⟩
      · refine .inl ⟨completed, ?_, start, ?_, ?_⟩
        · rw [program_stepped] at whole
          omega
        · omega
        · omega
      · refine .inr ⟨fault, failed, ?_, listed, ?_, ?_⟩
        · omega
        · omega
        · omega
    · contradiction

theorem le_length {outcome : Except Failure Unit × Engine} (course : engine.Course count outcome)
    (running : engine.fault = none) (inside : engine.pc < engine.program.body.length) :
    count ≤ engine.program.body.length := by
  rcases course.counters running inside with ⟨-, last, -⟩ | ⟨fault, -, place, listed, -⟩
  · omega
  · omega

theorem le_size {outcome : Except Failure Unit × Engine} (course : engine.Course count outcome)
    (running : engine.fault = none) (inside : engine.pc < engine.program.body.length) :
    count ≤ engine.program.size :=
  Nat.le_trans (course.le_length running inside) engine.program.length_body_le

/-- Without a limit of its own, the engine scans as the course says. -/
theorem scan_eq (course : engine.Course count (result, final)) (running : engine.fault = none)
    (inside : engine.pc < engine.program.body.length) (unlimited : engine.stepLimit = none) :
    engine.scan = (result.map fun _ => count, final) := by
  unfold scan
  rw [unlimited]
  exact course.scanWithin_eq (course.le_size running inside)

end Course

theorem stepLimit_serveAll (engine : Engine) (requests : List Request) :
    (engine.serveAll requests).stepLimit = engine.stepLimit :=
  (Invariant.stepLimit engine.stepLimit).serveAll rfl requests

theorem Coherent.inside {program : Program} {config : Config} {engine : Engine}
    (coherent : Coherent program config engine) (running : engine.fault = none) :
    engine.pc < engine.program.body.length := by
  rw [coherent.program_eq, program.length_body]
  exact (coherent.running running).1

/-- After any history, a scan of a running engine ends. Either it completes, with as many
steps as the body has left from the index, or a statement that it still had to run faults
once those before it have run. -/
theorem scan_terminates {program : Program} {config : Config} {requests : List Request}
    (running : ((start program config).serveAll requests).fault = none) :
    let engine := (start program config).serveAll requests
    let length := program.scanLength
    engine.pc < length ∧ (∃ count outcome, engine.Course count outcome) ∧
    ∀ count result final, engine.Course count (result, final) →
      (config.stepLimit = none → engine.scan = (result.map fun _ => count, final)) ∧
      count ≤ program.size ∧ (∀ limit, result ≠ .error (.stepLimit limit)) ∧
      (result = .ok () ∧ count = length - engine.pc ∧ final.pc = 0 ∧
          final.steps = engine.steps + (length - engine.pc) ∧ final.scans = engine.scans + 1 ∨
        ∃ fault, result = .error (.fault fault) ∧ engine.pc ≤ fault.index ∧
          fault.index < length ∧ final.steps = engine.steps + (fault.index - engine.pc) ∧
          final.scans = engine.scans) := by
  intro engine length
  have coherent : Coherent program config engine := .of_history program config requests
  have inside := coherent.inside running
  have whole : engine.program.body.length = length := by
    rw [coherent.program_eq, program.length_body]
  refine ⟨(coherent.running running).1, Course.exists_of_inside running inside, ?_⟩
  intro count result final course
  have bound := course.le_size running inside
  rw [coherent.program_eq] at bound
  refine ⟨?scan, bound, ?limit, ?counters⟩
  case scan =>
    intro unlimited
    apply course.scan_eq running inside
    exact (stepLimit_serveAll _ requests).trans unlimited
  case limit =>
    intro limit exceeded
    rcases course.counters running inside with ⟨completed, -⟩ | ⟨fault, failed, -⟩
    · cases exceeded.symm.trans completed
    · cases exceeded.symm.trans failed
  case counters =>
    rcases course.counters running inside with
      ⟨completed, last, start, taken, more⟩ | ⟨fault, failed, place, listed, taken, same⟩
    · have rest : count = length - engine.pc := by omega
      exact .inl ⟨completed, rest, start, rest ▸ taken, more⟩
    · have tried := course.count_pos
      have ran : final.steps + 1 = engine.steps + count := taken
      refine .inr ⟨fault, failed, ?_, ?_, ?_, same⟩
      · omega
      · omega
      · omega

/-- The rest of a second scan that was begun with a single step. -/
theorem scan_terminates_after_step :
    let program : Program :=
      ⟨#[⟨1, ⟨.load false, some 0⟩⟩, ⟨2, ⟨.out, some 0⟩⟩, ⟨3, ⟨.finish, none⟩⟩,
        ⟨4, ⟨.merge .or, none⟩⟩], by decide⟩
    let engine := (start program { bankSize := 0 }).serveAll [.scan, .setInput 0 true, .step]
    engine.fault = none ∧ engine.pc = 1 ∧
      ∃ count result final, engine.Course count (result, final) ∧ count ≤ 4 ∧
        engine.scan = (result.map fun _ => count, final) := by
  intro program engine
  have running : engine.fault = none := by decide
  obtain ⟨-, ⟨count, ⟨result, final⟩, course⟩, always⟩ := scan_terminates running
  obtain ⟨scan, bound, -⟩ := always count result final course
  exact ⟨running, by decide, count, result, final, course, bound, scan rfl⟩

end Engine

end RelayLadder
