import RelayLadder.Bench
import RelayLadder.Proofs.Engine.Control
import RelayLadder.Proofs.Engine.History

/-!
Two runs of a bench side by side. Each of its parts is a call of the engine, so that
engines which answer alike make the runs fail alike or end with matching outputs.
-/

namespace RelayLadder

/-- Two results that are the same failure, or values that are related. -/
inductive ResultsMatch {Left Right : Type} (Related : Left → Right → Prop) :
    Except Failure Left → Except Failure Right → Prop where
  | ok {left right} : Related left right → ResultsMatch Related (.ok left) (.ok right)
  | error (failure : Failure) : ResultsMatch Related (.error failure) (.error failure)

namespace ResultsMatch

variable {Left Right NextLeft NextRight : Type} {Related : Left → Right → Prop}
  {NextRelated : NextLeft → NextRight → Prop}

theorem bind {left : Except Failure Left} {right : Except Failure Right}
    {leftNext : Left → Except Failure NextLeft} {rightNext : Right → Except Failure NextRight}
    (results : ResultsMatch Related left right)
    (next : ∀ {leftValue rightValue}, Related leftValue rightValue →
      ResultsMatch NextRelated (leftNext leftValue) (rightNext rightValue)) :
    ResultsMatch NextRelated (left >>= leftNext) (right >>= rightNext) := by
  cases results with
  | ok related => exact next related
  | error failure => exact .error failure

theorem mapM {Item : Type} {left : Item → Except Failure Left} {right : Item → Except Failure Right}
    {items : List Item}
    (results : ∀ item ∈ items, ResultsMatch Related (left item) (right item)) :
    ResultsMatch (List.Forall₂ Related) (items.mapM left) (items.mapM right) := by
  induction items with
  | nil => exact .ok .nil
  | cons item items inductionHypothesis =>
    obtain ⟨first, others⟩ := List.forall_mem_cons.mp results
    rw [List.mapM_cons, List.mapM_cons]
    refine first.bind fun value => ?_
    refine (inductionHypothesis others).bind fun values => ?_
    exact .ok (.cons value values)

theorem fail_or_succeed {left : Except Failure Left} {right : Except Failure Right}
    (results : ResultsMatch Related left right) :
    (∃ failure, left = .error failure ∧ right = .error failure) ∨
      ∃ leftValue rightValue, left = .ok leftValue ∧ right = .ok rightValue := by
  cases results with
  | ok _ => exact .inr ⟨_, _, rfl, rfl⟩
  | error failure => exact .inl ⟨failure, rfl, rfl⟩

theorem refl {Value : Type} (result : Except Failure Value) :
    ResultsMatch (· = ·) result result := by
  cases result with
  | ok value => exact .ok rfl
  | error failure => exact .error failure

theorem eq {Value : Type} {left right : Except Failure Value}
    (results : ResultsMatch (· = ·) left right) : left = right := by
  cases results with
  | ok same => rw [same]
  | error failure => rfl

end ResultsMatch

/-- The value that a case gives to a cell in the end; a cell that it does not name is off. -/
def Case.last (case : Case) (address : Nat) : Bool := (case.reverse.lookup address).getD false

/-- Every cell of the case is one of the first so many. -/
def Case.Inside (case : Case) (count : Nat) : Prop := ∀ entry ∈ case, entry.1 < count

instance (case : Case) (count : Nat) : Decidable (case.Inside count) :=
  inferInstanceAs (Decidable (∀ entry ∈ case, entry.1 < count))

namespace Memory

/-- The memory with the cells of a case forced in order. -/
def force (memory : Memory) (case : Case) : Memory :=
  case.foldl (fun current entry => current.setBoth entry.1 entry.2) memory

@[simp] theorem extent_force (memory : Memory) (case : Case) :
    (memory.force case).extent = memory.extent := by
  induction case generalizing memory with
  | nil => rfl
  | cons entry case inductionHypothesis =>
    exact (inductionHypothesis _).trans (memory.extent_setBoth entry.1 entry.2)

@[simp] theorem mode_force (memory : Memory) (case : Case) :
    (memory.force case).mode = memory.mode := by
  induction case generalizing memory with
  | nil => rfl
  | cons entry case inductionHypothesis => exact inductionHypothesis _

/-- Forcing stores to both banks alike. -/
theorem cells_force (memory : Memory) {case : Case} (inside : case.Inside memory.cells) :
    (memory.force case).liveAt = afterStores memory.liveAt case ∧
      (memory.force case).pendingAt = afterStores memory.pendingAt case := by
  induction case generalizing memory with
  | nil => exact ⟨rfl, rfl⟩
  | cons entry case inductionHypothesis =>
    obtain ⟨here, others⟩ := List.forall_mem_cons.mp inside
    have after := inductionHypothesis (memory.setBoth entry.1 entry.2) others
    rw [liveAt_setBoth entry.2 here, pendingAt_setBoth entry.2 here] at after
    exact after

theorem cells_force_blank {size : Nat} {bounds : Bounds} {case : Case}
    (inside : case.Inside (bounds.cells size)) :
    ((blank size bounds).force case).liveAt = case.last ∧
      ((blank size bounds).force case).pendingAt = case.last := by
  obtain ⟨live, pending⟩ := (blank size bounds).cells_force inside
  have stored : afterStores (fun _ => false) case = case.last := by
    funext address
    exact afterStores_apply _ _ _
  rw [live, pending, liveAt_blank, pendingAt_blank, stored]
  exact ⟨rfl, rfl⟩

end Memory

namespace Engine

theorem force_cons (engine : Engine) (address : Nat) (value : Bool) (case : Case) :
    engine.force ((address, value) :: case) =
      engine.setInput address value >>= fun next => next.force case :=
  List.foldlM_cons

/-- A case whose cells are all there is forced to its end. -/
theorem force_of_inside {engine : Engine} {case : Case}
    (inside : case.Inside engine.memory.cells) :
    engine.force case = .ok { engine with memory := engine.memory.force case } := by
  induction case generalizing engine with
  | nil => rfl
  | cons entry case inductionHypothesis =>
    rcases entry with ⟨address, value⟩
    obtain ⟨here, others⟩ := List.forall_mem_cons.mp inside
    have forced : engine.setInput address value =
        .ok { engine with memory := engine.memory.setBoth address value } :=
      setInput_eq_ok_iff.mpr ⟨here, rfl⟩
    rw [force_cons, forced]
    exact inductionHypothesis others

variable {Related : Engine → Engine → Prop} {left right : Engine}

theorem Bisimulation.scanMany (bisimulation : Bisimulation Related) (related : Related left right)
    (count : Nat) : ResultsMatch Related (left.scanMany count) (right.scanMany count) := by
  induction count generalizing left right with
  | zero => exact .ok related
  | succ count inductionHypothesis =>
    obtain ⟨results, after⟩ := bisimulation.scan related
    rcases leftScan : left.scan with ⟨leftResult, leftNext⟩
    rcases rightScan : right.scan with ⟨rightResult, rightNext⟩
    rw [leftScan, rightScan] at results after
    subst results
    rw [Engine.scanMany, Engine.scanMany, leftScan, rightScan]
    cases leftResult with
    | ok steps => exact inductionHypothesis after
    | error failure => exact .error failure

/-- Whatever is forced and computed, engines of one control move alike. -/
theorem bisimulation_control : Bisimulation fun left right => left.control = right.control where
  step := by
    intro left right same
    have outcomes : outcome left.step = outcome right.step := by
      rw [outcome_step, outcome_step, same]
    exact Prod.mk.inj outcomes
  index := by
    intro left right same _
    exact congrArg Control.pc same
  budget := by
    intro left right same
    exact congrArg (fun control : Control => control.stepLimit.getD control.program.size) same
  extent := by
    intro left right same
    exact congrArg Control.extent same
  force := by
    intro left right address value _ same
    exact same
  clearMemory := by
    intro left right same
    exact same
  reset := by
    intro left right same
    rw [control_reset, control_reset, same]

theorem setInput_matches (same : left.control = right.control) (address : Nat)
    (leftValue rightValue : Bool) :
    ResultsMatch (fun left right => left.control = right.control)
      (left.setInput address leftValue) (right.setInput address rightValue) := by
  have extent : left.memory.extent = right.memory.extent := congrArg Control.extent same
  have cells : left.memory.cells = right.memory.cells := congrArg Extent.cells extent
  by_cases inside : address < left.memory.cells
  · rw [setInput_eq_ok_iff.mpr ⟨inside, rfl⟩, setInput_eq_ok_iff.mpr ⟨cells ▸ inside, rfl⟩]
    exact .ok same
  · have outside : ¬ address < right.memory.cells := cells ▸ inside
    simp only [setInput, Memory.setInput, if_neg inside, if_neg outside,
      Memory.outOfBounds_congr extent]
    exact .error _

/-- Cases that name the same cells in the same order can be forced alike. -/
theorem force_matches (same : left.control = right.control) {first second : Case}
    (names : first.map Prod.fst = second.map Prod.fst) :
    ResultsMatch (fun left right => left.control = right.control)
      (left.force first) (right.force second) := by
  induction first generalizing left right second with
  | nil =>
    obtain rfl := List.map_eq_nil_iff.mp names.symm
    exact .ok same
  | cons entry first inductionHypothesis =>
    rcases entry with ⟨address, value⟩
    obtain ⟨⟨_, other⟩, second, rfl, rfl, others⟩ := List.map_eq_cons_iff.mp names.symm
    rw [force_cons, force_cons]
    apply (setInput_matches same _ value other).bind
    intro leftNext rightNext following
    exact inductionHypothesis following others.symm

/-- A cell can be read in both engines or in neither. -/
theorem read_matches (same : left.control = right.control) (address : Nat) :
    ResultsMatch (fun _ _ => True) (left.read address) (right.read address) := by
  have extent : left.memory.extent = right.memory.extent := congrArg Control.extent same
  have cells : left.memory.cells = right.memory.cells := congrArg Extent.cells extent
  rw [read, read, Memory.read_eq, Memory.read_eq, cells, Memory.outOfBounds_congr extent]
  split
  · exact .ok trivial
  · exact .error _

end Engine

namespace Bench

open Engine

variable {Related : Engine → Engine → Prop} {Matching : Bool → Bool → Prop}

theorem run_of_fits {bench : Bench}
    (fits : bench.config.bounds.cells bench.config.bankSize ≤ Memory.longestBank) (case : Case) :
    bench.run case = (do
      let engine ← (start bench.program bench.config).force case
      let engine ← engine.scanMany bench.scans
      bench.outputs.mapM engine.read) := by
  rw [run, start?_eq_ok fits]
  rfl

theorem run_of_unallocatable {bench : Bench}
    (tooLong : ¬ bench.config.bounds.cells bench.config.bankSize ≤ Memory.longestBank)
    (case : Case) : bench.run case = .error .unallocatable := by
  simp only [run, start?, Memory.allocate?, if_neg tooLong]
  rfl

/-- Runs of one bench match, if the cases make the blank engine into engines that are
related, and related engines show matching outputs. -/
theorem run_matches (bisimulation : Bisimulation Related) (bench : Bench) {first second : Case}
    (forced : ResultsMatch Related ((start bench.program bench.config).force first)
      ((start bench.program bench.config).force second))
    (shown : ∀ {left right}, Related left right → ∀ address ∈ bench.outputs,
      ResultsMatch Matching (left.read address) (right.read address)) :
    ResultsMatch (List.Forall₂ Matching) (bench.run first) (bench.run second) := by
  by_cases fits : bench.config.bounds.cells bench.config.bankSize ≤ Memory.longestBank
  · rw [run_of_fits fits, run_of_fits fits]
    apply forced.bind
    intro leftForced rightForced related
    apply (bisimulation.scanMany related bench.scans).bind
    intro leftScanned rightScanned related
    exact .mapM (shown related)
  · rw [run_of_unallocatable fits, run_of_unallocatable fits]
    exact .error .unallocatable

/-- Whether a run fails, and how, depends on the names of the cells that are forced, and
not on their values. -/
theorem run_matches_of_names (bench : Bench) {first second : Case}
    (names : first.map Prod.fst = second.map Prod.fst) :
    (∃ failure, bench.run first = .error failure ∧ bench.run second = .error failure) ∨
      ∃ firstOutputs secondOutputs,
        bench.run first = .ok firstOutputs ∧ bench.run second = .ok secondOutputs := by
  have results : ResultsMatch (List.Forall₂ fun _ _ => True) (bench.run first)
      (bench.run second) := by
    apply run_matches bisimulation_control
    · exact force_matches rfl names
    · intro left right same address _
      exact read_matches same address
  exact results.fail_or_succeed

end Bench

end RelayLadder
