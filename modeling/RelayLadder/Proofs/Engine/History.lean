import RelayLadder.Proofs.Engine.Step

/-!
Histories of requests. All that a request does is to take steps, to force a cell, to
clear the memory or to reset. What these keep is kept along every history, and
engines whose steps are alike get through every number of them alike.
-/

namespace RelayLadder

namespace Engine

structure Invariant (Kept : Engine → Prop) : Prop where
  step : ∀ {engine}, Kept engine → Kept engine.step.2
  force : ∀ {engine address} (value : Bool), address < engine.memory.cells → Kept engine →
    Kept { engine with memory := engine.memory.setBoth address value }
  clearMemory : ∀ {engine}, Kept engine → Kept engine.clearMemory
  reset : ∀ {engine}, Kept engine → Kept engine.reset

namespace Invariant

variable {Kept : Engine → Prop} {engine : Engine}

theorem stepMany (invariant : Invariant Kept) (kept : Kept engine) (count : Nat) :
    Kept (engine.stepMany count).2 := by
  induction count generalizing engine with
  | zero => exact kept
  | succ count inductionHypothesis =>
    have after := invariant.step kept
    rcases step : engine.step with ⟨result, next⟩
    rw [step] at after
    cases result with
    | ok _ =>
      rw [stepMany_of_step_ok step]
      exact inductionHypothesis after
    | error failure =>
      rw [stepMany_of_step_error step]
      exact after

theorem scanOn (invariant : Invariant Kept) (kept : Kept engine) (limit remaining taken : Nat) :
    Kept (engine.scanOn limit remaining taken).2 := by
  induction remaining generalizing engine taken with
  | zero => exact kept
  | succ remaining inductionHypothesis =>
    have after := invariant.step kept
    rcases step : engine.step with ⟨result, next⟩
    rw [step] at after
    cases result with
    | ok _ =>
      rw [scanOn_of_step_ok step]
      split
      · exact after
      · exact inductionHypothesis after (taken + 1)
    | error failure =>
      rw [scanOn_of_step_error step]
      exact after

theorem serve (invariant : Invariant Kept) (kept : Kept engine) (request : Request) :
    Kept (engine.serve request).2 := by
  cases request with
  | step => exact invariant.step kept
  | stepMany count => exact invariant.stepMany kept count
  | scan => exact invariant.scanOn kept _ _ 0
  | scanWithin limit => exact invariant.scanOn kept limit limit 0
  | read address => exact kept
  | setInput address value =>
    rw [serve_setInput]
    split
    next inside => exact invariant.force value inside kept
    next => exact kept
  | clearMemory => exact invariant.clearMemory kept
  | reset => exact invariant.reset kept

theorem serveAll (invariant : Invariant Kept) (kept : Kept engine) (requests : List Request) :
    Kept (engine.serveAll requests) := by
  induction requests generalizing engine with
  | nil => exact kept
  | cons request rest inductionHypothesis =>
    exact inductionHypothesis (invariant.serve kept request)

theorem extent (extent : Extent) : Invariant fun engine => engine.memory.extent = extent where
  step := by
    intro engine kept
    apply keeps_step (fun engine => engine.memory.extent = extent) kept
    · intro _ _
      exact engine.extent_stepped.trans kept
    · intro _ _ _
      exact kept
  force := by
    intro engine address value _ kept
    exact kept
  clearMemory := by
    intro engine kept
    exact kept
  reset := by
    intro engine kept
    exact engine.memory.extent_resetMode.trans kept

end Invariant

theorem extent_serveAll (engine : Engine) (requests : List Request) :
    (engine.serveAll requests).memory.extent = engine.memory.extent :=
  (Invariant.extent engine.memory.extent).serveAll rfl requests

/-- A relation between engines that give the same result for a step and are related
after it. While they run, they stand at the same index. -/
structure Lockstep (Related : Engine → Engine → Prop) : Prop where
  step : ∀ {left right}, Related left right →
    left.step.1 = right.step.1 ∧ Related left.step.2 right.step.2
  index : ∀ {left right}, Related left right → left.fault = none → left.pc = right.pc

namespace Lockstep

variable {Related : Engine → Engine → Prop} {left right : Engine}

theorem next (lockstep : Lockstep Related) (related : Related left right) :
    ∃ result leftNext rightNext,
      left.step = (result, leftNext) ∧ right.step = (result, rightNext) ∧
        Related leftNext rightNext := by
  obtain ⟨results, after⟩ := lockstep.step related
  exact ⟨left.step.1, left.step.2, right.step.2, rfl, by rw [results], after⟩

theorem stepMany (lockstep : Lockstep Related) (related : Related left right) (count : Nat) :
    (left.stepMany count).1 = (right.stepMany count).1 ∧
      Related (left.stepMany count).2 (right.stepMany count).2 := by
  induction count generalizing left right with
  | zero => exact ⟨rfl, related⟩
  | succ count inductionHypothesis =>
    obtain ⟨result, leftNext, rightNext, leftStep, rightStep, after⟩ := lockstep.next related
    cases result with
    | ok _ =>
      rw [stepMany_of_step_ok leftStep, stepMany_of_step_ok rightStep]
      exact inductionHypothesis after
    | error failure =>
      rw [stepMany_of_step_error leftStep, stepMany_of_step_error rightStep]
      exact ⟨rfl, after⟩

theorem scanOn (lockstep : Lockstep Related) (related : Related left right)
    (limit remaining taken : Nat) :
    (left.scanOn limit remaining taken).1 = (right.scanOn limit remaining taken).1 ∧
      Related (left.scanOn limit remaining taken).2 (right.scanOn limit remaining taken).2 := by
  induction remaining generalizing left right taken with
  | zero => exact ⟨rfl, related⟩
  | succ remaining inductionHypothesis =>
    obtain ⟨result, leftNext, rightNext, leftStep, rightStep, after⟩ := lockstep.next related
    cases result with
    | ok _ =>
      obtain ⟨running, _, rfl⟩ := step_eq_ok_iff.mp leftStep
      have index := lockstep.index after running
      rw [scanOn_of_step_ok leftStep, scanOn_of_step_ok rightStep, index]
      split
      · exact ⟨rfl, after⟩
      · exact inductionHypothesis after (taken + 1)
    | error failure =>
      rw [scanOn_of_step_error leftStep, scanOn_of_step_error rightStep]
      exact ⟨rfl, after⟩

end Lockstep

/-- Engines in lockstep that stay related whatever the host does to both. -/
structure Bisimulation (Related : Engine → Engine → Prop) : Prop extends Lockstep Related where
  budget : ∀ {left right}, Related left right →
    left.stepLimit.getD left.program.size = right.stepLimit.getD right.program.size
  extent : ∀ {left right}, Related left right → left.memory.extent = right.memory.extent
  force : ∀ {left right address} (value : Bool), address < left.memory.cells →
    Related left right →
    Related { left with memory := left.memory.setBoth address value }
      { right with memory := right.memory.setBoth address value }
  clearMemory : ∀ {left right}, Related left right → Related left.clearMemory right.clearMemory
  reset : ∀ {left right}, Related left right → Related left.reset right.reset

namespace Bisimulation

variable {Related : Engine → Engine → Prop} {left right : Engine}

theorem scan (bisimulation : Bisimulation Related) (related : Related left right) :
    left.scan.1 = right.scan.1 ∧ Related left.scan.2 right.scan.2 := by
  rw [Engine.scan, Engine.scan, bisimulation.budget related]
  exact bisimulation.scanOn related _ _ 0

/-- Related engines have the same addresses. -/
theorem setInput (bisimulation : Bisimulation Related) (related : Related left right)
    (address : Nat) (value : Bool) :
    (left.serve (.setInput address value)).1 = (right.serve (.setInput address value)).1 ∧
      Related (left.serve (.setInput address value)).2
        (right.serve (.setInput address value)).2 := by
  have extent := bisimulation.extent related
  have cells : right.memory.cells = left.memory.cells := (congrArg Extent.cells extent).symm
  rw [serve_setInput, serve_setInput, cells, Memory.outOfBounds_congr extent]
  split
  next inside => exact ⟨rfl, bisimulation.force value inside related⟩
  next => exact ⟨rfl, related⟩

theorem serve (bisimulation : Bisimulation Related) (related : Related left right)
    (request : Request) : Related (left.serve request).2 (right.serve request).2 := by
  cases request with
  | step => exact (bisimulation.step related).2
  | stepMany count => exact (bisimulation.stepMany related count).2
  | scan => exact (bisimulation.scan related).2
  | scanWithin limit => exact (bisimulation.scanOn related limit limit 0).2
  | read address => exact related
  | setInput address value => exact (bisimulation.setInput related address value).2
  | clearMemory => exact bisimulation.clearMemory related
  | reset => exact bisimulation.reset related

theorem serveAll (bisimulation : Bisimulation Related) (related : Related left right)
    (requests : List Request) : Related (left.serveAll requests) (right.serveAll requests) := by
  induction requests generalizing left right with
  | nil => exact related
  | cons request rest inductionHypothesis =>
    apply inductionHypothesis
    exact bisimulation.serve related request

theorem read (bisimulation : Bisimulation Related) (related : Related left right) {address : Nat}
    (same : left.memory.liveAt address = right.memory.liveAt address) :
    left.read address = right.read address := by
  rw [Engine.read, Engine.read, Memory.read_congr (bisimulation.extent related) same]

/-- Related engines answer alike, if a cell that is read is the same in both. -/
theorem answer (bisimulation : Bisimulation Related) (related : Related left right)
    {request : Request}
    (same : ∀ address, request = .read address →
      left.memory.liveAt address = right.memory.liveAt address) :
    (left.serve request).1 = (right.serve request).1 := by
  cases request with
  | step => exact congrArg (Except.map _) (bisimulation.step related).1
  | stepMany count => exact congrArg (Except.map _) (bisimulation.stepMany related count).1
  | scan => exact congrArg (Except.map _) (bisimulation.scan related).1
  | scanWithin limit =>
    exact congrArg (Except.map _) (bisimulation.scanOn related limit limit 0).1
  | read address =>
    exact congrArg (Except.map _) (bisimulation.read related (same address rfl))
  | setInput address value => exact (bisimulation.setInput related address value).1
  | clearMemory | reset => rfl

end Bisimulation

end Engine

end RelayLadder
