import RelayLadder.Proofs.Engine.Step

/-!
A plain interpreter of whole scans, and its agreement with the per-scan engine. It
has one memory. The loads of a scan see that memory as it was, and the stores are
listed and made when the scan is over.
-/

namespace RelayLadder

/-- A call that is made between two scans. -/
inductive ScanCall where
  | scan
  | scanWithin (limit : Nat)
  | read (address : Nat)
  | setInput (address : Nat) (value : Bool)
  | clearMemory
  | reset
  deriving DecidableEq

def ScanCall.request : ScanCall → Request
  | .scan => .scan
  | .scanWithin limit => .scanWithin limit
  | .read address => .read address
  | .setInput address value => .setInput address value
  | .clearMemory => .clearMemory
  | .reset => .reset

namespace Engine

/-- An engine that stands between two scans. -/
def BetweenScans (engine : Engine) : Prop := engine.pc = 0 ∧ engine.fault = none

instance (engine : Engine) : Decidable engine.BetweenScans :=
  inferInstanceAs (Decidable (engine.pc = 0 ∧ engine.fault = none))

/-- Calls each of which finds the engine between two scans. -/
def CalledBetweenScans : Engine → List ScanCall → Prop
  | _, [] => True
  | engine, call :: calls =>
    engine.BetweenScans ∧ (engine.serve call.request).2.CalledBetweenScans calls

instance decidableCalledBetweenScans :
    (engine : Engine) → (calls : List ScanCall) → Decidable (engine.CalledBetweenScans calls)
  | _, [] => .isTrue trivial
  | engine, call :: calls =>
    have := decidableCalledBetweenScans (engine.serve call.request).2 calls
    inferInstanceAs (Decidable (_ ∧ _))

/-- The answers to calls in order, and the engine after them. -/
def answerAll : Engine → List ScanCall → List (Except Failure Reply) × Engine
  | engine, [] => ([], engine)
  | engine, call :: calls =>
    let (answers, last) := (engine.serve call.request).2.answerAll calls
    ((engine.serve call.request).1 :: answers, last)

end Engine

/-- The state of the interpreter between two scans. -/
structure Reference where
  program : Program
  extent : Extent
  stepLimit : Option Nat
  cells : Nat → Bool
  stack : Stack

namespace Reference

def start (program : Program) (config : Config) : Reference where
  program := program
  extent := ⟨config.bankSize, config.bounds⟩
  stepLimit := config.stepLimit
  cells := fun _ => false
  stack := .empty

/-- Runs statements in order, and gives the number of the next one, the stack and
the list of stores, to which each store is added at the end. -/
def run (extent : Extent) (cells : Nat → Bool) (limit : Option Nat) :
    List Statement → Nat → Stack → List (Nat × Bool) →
      Except Failure (Nat × Stack × List (Nat × Bool))
  | [], index, stack, stores => .ok (index, stack, stores)
  | ⟨line, instruction⟩ :: rest, index, stack, stores =>
    if limit = some index then .error (.stepLimit index)
    else
      match instruction.objection? extent stack.depth with
      | some kind => .error (.fault ⟨index, line, instruction, kind⟩)
      | none =>
        run extent cells limit rest (index + 1) (instruction.evaluate cells stack)
          (stores ++ (instruction.store? stack).toList)

def scan (reference : Reference) (limit : Option Nat) : Except Failure Nat × Reference :=
  match run reference.extent reference.cells limit reference.program.body 0 reference.stack [] with
  | .ok (count, stack, stores) =>
    (.ok count, { reference with stack, cells := Memory.afterStores reference.cells stores })
  | .error failure => (.error failure, reference)

def outOfBounds (reference : Reference) (address : Nat) : Failure :=
  .outOfBounds ⟨address, reference.extent.size, reference.extent.bounds⟩

def read (reference : Reference) (address : Nat) : Except Failure Bool :=
  if address < reference.extent.cells then .ok (reference.cells address)
  else .error (reference.outOfBounds address)

def serve (reference : Reference) : ScanCall → Except Failure Reply × Reference
  | .scan =>
    let (result, next) := reference.scan reference.stepLimit
    (result.map .count, next)
  | .scanWithin limit =>
    let (result, next) := reference.scan (some limit)
    (result.map .count, next)
  | .read address => ((reference.read address).map .value, reference)
  | .setInput address value =>
    if address < reference.extent.cells then
      (.ok .done, { reference with cells := Function.update reference.cells address value })
    else (.error (reference.outOfBounds address), reference)
  | .clearMemory => (.ok .done, { reference with cells := fun _ => false })
  | .reset => (.ok .done, { reference with stack := .empty })

def answerAll : Reference → List ScanCall → List (Except Failure Reply) × Reference
  | reference, [] => ([], reference)
  | reference, call :: calls =>
    let (answers, last) := (reference.serve call).2.answerAll calls
    ((reference.serve call).1 :: answers, last)

/-- With a statement allowed for each, the limit is never met. -/
theorem run_none_eq {extent : Extent} {cells : Nat → Bool} {limit : Nat}
    (statements : List Statement) (index : Nat) (stack : Stack) (stores : List (Nat × Bool))
    (enough : index + statements.length ≤ limit) :
    run extent cells none statements index stack stores =
      run extent cells (some limit) statements index stack stores := by
  induction statements generalizing index stack stores with
  | nil => rfl
  | cons statement rest inductionHypothesis =>
    have within : limit ≠ index := by
      simp at enough
      omega
    have following : index + 1 + rest.length ≤ limit := by
      simp at enough
      omega
    simp only [run, reduceCtorEq, if_false, Option.some.injEq, within]
    split
    · rfl
    · exact inductionHypothesis _ _ _ following

theorem scan_none (reference : Reference) :
    reference.scan none = reference.scan (some reference.program.size) := by
  have enough : 0 + reference.program.body.length ≤ reference.program.size := by
    rw [Nat.zero_add]
    exact reference.program.length_body_le
  rw [scan, scan, run_none_eq _ _ _ _ enough]

/-- An engine in the middle of a scan that has made the listed stores so far: the
live bank is the one memory, and the pending bank already has the stores. -/
structure Mirrors (reference : Reference) (stores : List (Nat × Bool)) (engine : Engine) :
    Prop where
  policy : engine.toggle = .perScan
  program : engine.program = reference.program
  extent : engine.memory.extent = reference.extent
  stepLimit : engine.stepLimit = reference.stepLimit
  live : engine.memory.liveAt = reference.cells
  pending : engine.memory.pendingAt = Memory.afterStores reference.cells stores

namespace Mirrors

variable {reference : Reference} {stores : List (Nat × Bool)} {engine : Engine}

theorem evaluate (mirrors : Mirrors reference stores engine) :
    engine.stepped.stack =
      engine.statement.instruction.evaluate reference.cells engine.stack := by
  rw [← mirrors.live]
  rfl

theorem step (mirrors : Mirrors reference stores engine) (accepted : engine.objection? = none)
    (unfinished : engine.stepped.pc ≠ 0) :
    Mirrors reference (stores ++ engine.store?.toList) engine.stepped := by
  have live := Engine.liveAt_stepped_of_perScan mirrors.policy accepted
  have pending := Engine.pendingAt_stepped_of_perScan mirrors.policy accepted
  rw [if_neg unfinished, mirrors.live] at live
  rw [mirrors.pending, ← Memory.afterStores_append] at pending
  exact ⟨mirrors.policy, mirrors.program, by simp [mirrors.extent], mirrors.stepLimit, live,
    pending⟩

theorem lastStep (mirrors : Mirrors reference stores engine) (accepted : engine.objection? = none)
    (finished : engine.stepped.pc = 0) (stack : Stack) :
    Mirrors
      { reference with
        stack
        cells := Memory.afterStores reference.cells (stores ++ engine.store?.toList) }
      [] engine.stepped := by
  have live := Engine.liveAt_stepped_of_perScan mirrors.policy accepted
  have pending := Engine.pendingAt_stepped_of_perScan mirrors.policy accepted
  rw [if_pos finished, mirrors.pending, ← Memory.afterStores_append] at live
  rw [mirrors.pending, ← Memory.afterStores_append] at pending
  exact ⟨mirrors.policy, mirrors.program, by simp [mirrors.extent], mirrors.stepLimit, live,
    pending⟩

/-- The rest of a scan goes as the interpreter says. -/
theorem scanOn (mirrors : Mirrors reference stores engine) (running : engine.fault = none)
    {statements : List Statement} (ahead : engine.program.body.drop engine.pc = statements)
    (unfinished : statements ≠ []) {limit remaining : Nat}
    (budget : limit = engine.pc + remaining) :
    match run reference.extent reference.cells (some limit) statements engine.pc engine.stack
        stores with
    | .ok (count, stack, stores) => ∃ next,
        engine.scanOn limit remaining engine.pc = (.ok count, next) ∧
          next.pc = 0 ∧ next.fault = none ∧ next.stack = stack ∧
          Mirrors
            { reference with stack, cells := Memory.afterStores reference.cells stores } [] next
    | .error failure => ∃ next,
        engine.scanOn limit remaining engine.pc = (.error failure, next) ∧
          (next.pc = 0 → next.fault = none → next = engine) := by
  -- Along the rest of the body; each step moves its store to the end of the list.
  induction statements generalizing engine stores remaining with
  | nil => contradiction
  | cons statement rest inductionHypothesis =>
    rcases statement with ⟨line, instruction⟩
    obtain ⟨fetched, index⟩ := Engine.pc_stepped_of_body ahead
    cases remaining with
    | zero =>
      simp only [run, budget, Nat.add_zero, if_true]
      exact ⟨engine, rfl, fun _ _ => rfl⟩
    | succ remaining =>
      have within : some limit ≠ some engine.pc := by
        simp
        omega
      have objections : engine.objection? =
          instruction.objection? reference.extent engine.stack.depth := by
        rw [Engine.objection?_of_body ahead, mirrors.extent]
      simp only [run, within, if_false]
      cases decided : instruction.objection? reference.extent engine.stack.depth with
      | some kind =>
        have failed := Engine.step_of_objection running (objections.trans decided)
        rw [Engine.blame, fetched] at failed
        refine ⟨_, Engine.scanOn_of_step_error failed limit remaining engine.pc, ?_⟩
        intro _ released
        cases released
      | none =>
        have accepted : engine.objection? = none := objections.trans decided
        have stepped := Engine.step_of_accepted running accepted
        have stack := mirrors.evaluate
        have stored : engine.store? = instruction.store? engine.stack := by
          rw [Engine.store?, fetched]
        rw [fetched] at stack
        rw [Engine.scanOn_of_step_ok stepped, ← stack, ← stored]
        by_cases last : rest = []
        · rw [if_pos last] at index
          subst last
          rw [if_pos index]
          exact ⟨engine.stepped, rfl, index, running, rfl,
            mirrors.lastStep accepted index engine.stepped.stack⟩
        · obtain ⟨index, following⟩ := Engine.ahead_stepped ahead last
          have unfinished : engine.stepped.pc ≠ 0 := by omega
          have nextBudget : limit = engine.stepped.pc + remaining := by omega
          have outcome := inductionHypothesis (mirrors.step accepted unfinished) running
            following last nextBudget
          rw [if_neg unfinished, ← index]
          split at outcome
          next count finalStack finalStores completed =>
            rw [completed]
            exact outcome
          next failure failed =>
            obtain ⟨next, result, boundary⟩ := outcome
            rw [failed]
            refine ⟨next, result, ?_⟩
            intro atStart released
            rw [boundary atStart released] at atStart
            contradiction

end Mirrors

/-- An engine and the interpreter at the same point between two scans. -/
structure Agrees (reference : Reference) (engine : Engine) : Prop where
  boundary : engine.BetweenScans
  stack : engine.stack = reference.stack
  mirrors : Mirrors reference [] engine

namespace Agrees

variable {reference : Reference} {engine : Engine}

theorem scanWithin (agrees : Agrees reference engine) (limit : Nat) :
    (engine.scanWithin limit).1 = (reference.scan (some limit)).1 ∧
      ((engine.scanWithin limit).2.BetweenScans →
        Agrees (reference.scan (some limit)).2 (engine.scanWithin limit).2) := by
  have ahead : engine.program.body.drop engine.pc = reference.program.body := by
    rw [agrees.boundary.1, agrees.mirrors.program]
    rfl
  have outcome := agrees.mirrors.scanOn agrees.boundary.2 ahead reference.program.body_ne_nil
    (show limit = engine.pc + limit by rw [agrees.boundary.1, Nat.zero_add])
  rw [agrees.boundary.1, agrees.stack] at outcome
  unfold Reference.scan Engine.scanWithin
  split at outcome
  next count stack stores completed =>
    obtain ⟨next, result, start, released, finalStack, mirrors⟩ := outcome
    rw [result]
    exact ⟨rfl, fun _ => ⟨⟨start, released⟩, finalStack, mirrors⟩⟩
  next failure failed =>
    obtain ⟨next, result, unmoved⟩ := outcome
    rw [result]
    refine ⟨rfl, ?_⟩
    rintro ⟨start, released⟩
    rw [unmoved start released]
    exact agrees

theorem scan (agrees : Agrees reference engine) :
    engine.scan.1 = (reference.scan reference.stepLimit).1 ∧
      (engine.scan.2.BetweenScans →
        Agrees (reference.scan reference.stepLimit).2 engine.scan.2) := by
  unfold Engine.scan
  rw [agrees.mirrors.stepLimit, agrees.mirrors.program]
  cases reference.stepLimit with
  | none =>
    rw [scan_none]
    exact agrees.scanWithin reference.program.size
  | some limit => exact agrees.scanWithin limit

theorem read (agrees : Agrees reference engine) (address : Nat) :
    engine.read address = reference.read address := by
  have cells : engine.memory.cells = reference.extent.cells := by
    rw [← Memory.cells_extent, agrees.mirrors.extent]
  have refusal : Failure.outOfBounds (engine.memory.outOfBounds address) =
      reference.outOfBounds address := by
    rw [Reference.outOfBounds, ← agrees.mirrors.extent]
    rfl
  rw [Engine.read, Memory.read_eq, cells, agrees.mirrors.live, Reference.read, ← refusal]
  split <;> rfl

theorem setInput (agrees : Agrees reference engine) (address : Nat) (value : Bool) :
    (engine.serve (.setInput address value)).1 = (reference.serve (.setInput address value)).1 ∧
      Agrees (reference.serve (.setInput address value)).2
        (engine.serve (.setInput address value)).2 := by
  obtain ⟨boundary, stack, mirrors⟩ := agrees
  have cells : engine.memory.cells = reference.extent.cells := by
    rw [← Memory.cells_extent, mirrors.extent]
  rw [Engine.serve_setInput, cells, Reference.serve]
  split
  next inside =>
    rw [← cells] at inside
    have live := Memory.liveAt_setBoth value inside
    have pending := Memory.pendingAt_setBoth value inside
    rw [mirrors.live] at live
    rw [mirrors.pending] at pending
    exact ⟨rfl, boundary, stack, mirrors.policy, mirrors.program, mirrors.extent,
      mirrors.stepLimit, live, pending⟩
  next outside =>
    refine ⟨?_, boundary, stack, mirrors⟩
    rw [Reference.outOfBounds, ← mirrors.extent]
    rfl

theorem clearMemory (agrees : Agrees reference engine) :
    Agrees { reference with cells := fun _ => false } engine.clearMemory := by
  obtain ⟨boundary, stack, mirrors⟩ := agrees
  exact ⟨boundary, stack, mirrors.policy, mirrors.program, mirrors.extent, mirrors.stepLimit,
    engine.memory.liveAt_clear, engine.memory.pendingAt_clear⟩

theorem reset (agrees : Agrees reference engine) :
    Agrees { reference with stack := .empty } engine.reset := by
  obtain ⟨boundary, stack, mirrors⟩ := agrees
  obtain ⟨live, pending⟩ := Memory.liveAt_resetMode (mirrors.live.trans mirrors.pending.symm)
  have extent := engine.memory.extent_resetMode
  exact ⟨⟨rfl, rfl⟩, rfl, mirrors.policy, mirrors.program, extent.trans mirrors.extent,
    mirrors.stepLimit, live.trans mirrors.live, pending.trans mirrors.pending⟩

/-- Between two scans, each call has the same answer from the engine and from the
interpreter, which then agree again when the engine is between two scans. -/
theorem serve (agrees : Agrees reference engine) (call : ScanCall) :
    (engine.serve call.request).1 = (reference.serve call).1 ∧
      ((engine.serve call.request).2.BetweenScans →
        Agrees (reference.serve call).2 (engine.serve call.request).2) := by
  cases call with
  | scan =>
    obtain ⟨results, next⟩ := agrees.scan
    exact ⟨congrArg (Except.map Reply.count) results, next⟩
  | scanWithin limit =>
    obtain ⟨results, next⟩ := agrees.scanWithin limit
    exact ⟨congrArg (Except.map Reply.count) results, next⟩
  | read address =>
    exact ⟨congrArg (Except.map Reply.value) (agrees.read address), fun _ => agrees⟩
  | setInput address value =>
    obtain ⟨results, next⟩ := agrees.setInput address value
    exact ⟨results, fun _ => next⟩
  | clearMemory => exact ⟨rfl, fun _ => agrees.clearMemory⟩
  | reset => exact ⟨rfl, fun _ => agrees.reset⟩

/-- As long as every call comes between two scans, the interpreter gives the
engine's answers. -/
theorem answerAll (agrees : Agrees reference engine) {calls : List ScanCall}
    (called : engine.CalledBetweenScans calls) :
    (engine.answerAll calls).1 = (reference.answerAll calls).1 ∧
      ((engine.answerAll calls).2.BetweenScans →
        Agrees (reference.answerAll calls).2 (engine.answerAll calls).2) := by
  induction calls generalizing engine reference with
  | nil => exact ⟨rfl, fun _ => agrees⟩
  | cons call calls inductionHypothesis =>
    obtain ⟨answer, next⟩ := agrees.serve call
    obtain ⟨_, called⟩ := called
    by_cases boundary : (engine.serve call.request).2.BetweenScans
    · obtain ⟨answers, last⟩ := inductionHypothesis (next boundary) called
      exact ⟨congrArg₂ List.cons answer answers, last⟩
    · cases calls with
      | nil => exact ⟨congrArg (· :: []) answer, next⟩
      | cons following calls => exact absurd called.1 boundary

end Agrees

end Reference

end RelayLadder
