import RelayLadder.Proofs.Engine.Latch
import RelayLadder.Proofs.Engine.Progress
import RelayLadder.Proofs.Engine.Synchrony

/-!
Cells under the host's control. A cell that is forced has its value in both banks, so it
keeps it however often the banks change roles, until the host sets it again or a store
to it runs. A cell that the program never stores to is the host's alone.
-/

namespace RelayLadder

/-- The value that a request gives to a cell by itself, without running anything. -/
def Request.sets? (address : Nat) : Request → Option Bool
  | .setInput target value => if target = address then some value else none
  | .clearMemory => some false
  | .step | .stepMany _ | .scan | .scanWithin _ | .read _ | .reset => none

/-- The value that the host has given to a cell last, or the one it had. -/
def Request.setLast (address : Nat) (requests : List Request) (former : Bool) : Bool :=
  requests.foldl (fun current request => (request.sets? address).getD current) former

theorem Request.setLast_of_unset {address : Nat} {requests : List Request}
    (unset : ∀ request ∈ requests, request.sets? address = none) (former : Bool) :
    Request.setLast address requests former = former := by
  induction requests with
  | nil => rfl
  | cons request rest inductionHypothesis =>
    obtain ⟨here, others⟩ := List.forall_mem_cons.mp unset
    rw [setLast, List.foldl_cons, here]
    exact inductionHypothesis others

namespace Memory

/-- Both banks have the cell, with the value in it. -/
structure HoldsAt (memory : Memory) (address : Nat) (value : Bool) : Prop where
  live : memory.live[address]? = some value
  pending : memory.pending[address]? = some value

namespace HoldsAt

variable {memory : Memory} {address other : Nat} {value : Bool}

theorem inside (holds : memory.HoldsAt address value) : address < memory.cells := by
  obtain ⟨bound, _⟩ := Array.getElem?_eq_some_iff.mp holds.live
  rwa [memory.size_live] at bound

theorem blank {size : Nat} {bounds : Bounds} (inside : address < bounds.cells size) :
    (Memory.blank size bounds).HoldsAt address false := by
  constructor <;> simp [Memory.blank, inside]

theorem setBoth (inside : address < memory.cells) :
    (memory.setBoth address value).HoldsAt address value := by
  constructor <;> simp [Memory.setBoth, inside]

theorem setBoth_of_ne (holds : memory.HoldsAt address value) (different : other ≠ address)
    (stored : Bool) : (memory.setBoth other stored).HoldsAt address value := by
  constructor
  · simpa [Memory.setBoth, different] using holds.live
  · simpa [Memory.setBoth, different] using holds.pending

theorem clear (holds : memory.HoldsAt address value) : memory.clear.HoldsAt address false := by
  constructor <;> simp [Memory.clear, holds.inside]

theorem toggle (holds : memory.HoldsAt address value) : memory.toggle.HoldsAt address value :=
  ⟨holds.pending, holds.live⟩

theorem settle (holds : memory.HoldsAt address value) (policy : TogglePolicy)
    (completed : Bool) : (policy.settle completed memory).HoldsAt address value := by
  cases policy with
  | perInstruction => exact holds.toggle
  | perScan =>
    cases completed with
    | true => exact ⟨holds.pending, holds.pending⟩
    | false => exact holds

theorem resetMode (holds : memory.HoldsAt address value) :
    memory.resetMode.HoldsAt address value := by
  unfold Memory.resetMode
  split
  · exact holds.toggle
  · exact holds

theorem put (holds : memory.HoldsAt address value) {stored : Option (Nat × Bool)}
    (elsewhere : ∀ written, stored ≠ some (address, written)) :
    (memory.put stored).HoldsAt address value := by
  cases stored with
  | none => exact holds
  | some entry =>
    rcases entry with ⟨target, written⟩
    have different : target ≠ address := by
      rintro rfl
      exact elsewhere written rfl
    refine ⟨holds.live, ?_⟩
    simpa [Memory.put, Memory.setPending, different] using holds.pending

end HoldsAt

end Memory

namespace Engine

/-- What the steps of a request store, in order. The steps that it takes are counted by
the engine. -/
def storedBy (engine : Engine) (request : Request) : List (Nat × Bool) :=
  engine.stores ((engine.serve request).2.steps - engine.steps)

/-- What a history of requests stores, in order. -/
def storedByAll : Engine → List Request → List (Nat × Bool)
  | _, [] => []
  | engine, request :: requests =>
    engine.storedBy request ++ (engine.serve request).2.storedByAll requests

variable {engine next : Engine} {address : Nat} {value : Bool}

theorem kept_of_step_error {failure : Failure} (failed : engine.step = (.error failure, next)) :
    next.memory = engine.memory ∧ next.steps = engine.steps := by
  cases latched : engine.fault with
  | some fault =>
    rw [step_of_fault latched] at failed
    cases failed
    exact ⟨rfl, rfl⟩
  | none =>
    cases decided : engine.objection? with
    | none =>
      rw [step_of_accepted latched decided] at failed
      cases failed
    | some kind =>
      rw [step_of_objection latched decided] at failed
      cases failed
      exact ⟨rfl, rfl⟩

theorem steps_le_stepMany (engine : Engine) (count : Nat) :
    engine.steps ≤ (engine.stepMany count).2.steps := by
  induction count generalizing engine with
  | zero => exact Nat.le_refl _
  | succ count inductionHypothesis =>
    rcases step : engine.step with ⟨result, next⟩
    cases result with
    | ok _ =>
      obtain ⟨_, _, rfl⟩ := step_eq_ok_iff.mp step
      rw [stepMany_of_step_ok step]
      exact Nat.le_of_succ_le (inductionHypothesis engine.stepped)
    | error failure =>
      rw [stepMany_of_step_error step]
      exact Nat.le_of_eq (kept_of_step_error step).2.symm

/-- What several steps store is what the first one stores and then what the others do. -/
theorem stores_stepMany_succ (step : engine.step = (.ok (), next)) (count : Nat) :
    engine.stores ((engine.stepMany (count + 1)).2.steps - engine.steps) =
      engine.store?.toList ++ next.stores ((next.stepMany count).2.steps - next.steps) := by
  obtain ⟨_, _, rfl⟩ := step_eq_ok_iff.mp step
  have counted := engine.steps_stepped
  have further := engine.stepped.steps_le_stepMany count
  have more : (engine.stepped.stepMany count).2.steps - engine.steps =
      (engine.stepped.stepMany count).2.steps - engine.stepped.steps + 1 := by
    omega
  rw [stepMany_of_step_ok step, more, stores, step]

/-- A store that several steps make is made by one of them. -/
theorem mem_stores_stepMany {count : Nat} {entry : Nat × Bool}
    (member : entry ∈ engine.stores ((engine.stepMany count).2.steps - engine.steps)) :
    ∃ earlier during, engine.stepMany earlier = (.ok (), during) ∧ during.fault = none ∧
      during.store? = some entry := by
  induction count generalizing engine with
  | zero =>
    rw [stepMany, Nat.sub_self, stores] at member
    cases member
  | succ count inductionHypothesis =>
    rcases step : engine.step with ⟨result, next⟩
    cases result with
    | error failure =>
      rw [stepMany_of_step_error step, (kept_of_step_error step).2, Nat.sub_self] at member
      cases member
    | ok _ =>
      rw [stores_stepMany_succ step, List.mem_append, Option.mem_toList] at member
      rcases member with first | later
      · exact ⟨0, engine, rfl, (step_eq_ok_iff.mp step).1, first⟩
      · obtain ⟨earlier, during, run, running, stored⟩ := inductionHypothesis later
        refine ⟨earlier + 1, during, ?_, running, stored⟩
        rw [stepMany_of_step_ok step, run]

/-- A scan is a number of steps. -/
theorem exists_stepMany_eq_scanOn (engine : Engine) (limit remaining taken : Nat) :
    ∃ count, (engine.scanOn limit remaining taken).2 = (engine.stepMany count).2 := by
  induction remaining generalizing engine taken with
  | zero => exact ⟨0, rfl⟩
  | succ remaining inductionHypothesis =>
    rcases step : engine.step with ⟨result, next⟩
    cases result with
    | error failure =>
      refine ⟨1, ?_⟩
      rw [scanOn_of_step_error step, stepMany_of_step_error step]
    | ok _ =>
      rw [scanOn_of_step_ok step]
      split
      · refine ⟨1, ?_⟩
        rw [stepMany_of_step_ok step]
        rfl
      · obtain ⟨count, same⟩ := inductionHypothesis next (taken + 1)
        refine ⟨count + 1, ?_⟩
        rw [stepMany_of_step_ok step, same]

theorem exists_stepMany_eq_serve (engine : Engine) {request : Request}
    (runs : request.isRun = true) :
    ∃ count, (engine.serve request).2 = (engine.stepMany count).2 := by
  cases request with
  | step =>
    refine ⟨1, ?_⟩
    rcases step : engine.step with ⟨result, next⟩
    cases result with
    | ok _ =>
      rw [serve, step, stepMany_of_step_ok step]
      rfl
    | error failure => rw [serve, step, stepMany_of_step_error step]
  | stepMany count => exact ⟨count, rfl⟩
  | scan => exact engine.exists_stepMany_eq_scanOn _ _ 0
  | scanWithin limit => exact engine.exists_stepMany_eq_scanOn limit limit 0
  | read target | setInput target value | clearMemory | reset => contradiction

end Engine

namespace Memory.HoldsAt

open Engine

variable {engine : Engine} {address : Nat} {value : Bool}

theorem stepped (holds : engine.memory.HoldsAt address value)
    (elsewhere : ∀ written, engine.store? ≠ some (address, written)) :
    engine.stepped.memory.HoldsAt address value := by
  rw [memory_stepped]
  apply settle
  exact holds.put elsewhere

theorem stepMany (holds : engine.memory.HoldsAt address value) {count : Nat}
    (unstored : ∀ written,
      (address, written) ∉ engine.stores ((engine.stepMany count).2.steps - engine.steps)) :
    (engine.stepMany count).2.memory.HoldsAt address value := by
  induction count generalizing engine with
  | zero => exact holds
  | succ count inductionHypothesis =>
    rcases step : engine.step with ⟨result, next⟩
    cases result with
    | error failure =>
      rw [stepMany_of_step_error step, (kept_of_step_error step).1]
      exact holds
    | ok _ =>
      simp only [stores_stepMany_succ step, List.mem_append, not_or] at unstored
      obtain ⟨_, _, rfl⟩ := step_eq_ok_iff.mp step
      rw [stepMany_of_step_ok step]
      apply inductionHypothesis
      · apply holds.stepped
        intro written stored
        apply (unstored written).1
        rw [stored]
        exact List.mem_singleton_self _
      · intro written
        exact (unstored written).2

theorem run (holds : engine.memory.HoldsAt address value) {request : Request}
    (runs : request.isRun = true)
    (unstored : ∀ written, (address, written) ∉ engine.storedBy request) :
    (engine.serve request).2.memory.HoldsAt address value := by
  obtain ⟨count, same⟩ := engine.exists_stepMany_eq_serve runs
  rw [storedBy, same] at unstored
  rw [same]
  exact holds.stepMany unstored

theorem serve_setInput (holds : engine.memory.HoldsAt address value) (target : Nat)
    (forced : Bool) :
    (engine.serve (.setInput target forced)).2.memory.HoldsAt address
      (((Request.setInput target forced).sets? address).getD value) := by
  rw [Engine.serve_setInput, Request.sets?]
  by_cases same : target = address
  · subst same
    rw [if_pos holds.inside, if_pos rfl]
    exact setBoth holds.inside
  · rw [if_neg same]
    split
    · exact holds.setBoth_of_ne same forced
    · exact holds

/-- A cell that no step of a request stores to has the value that the request gives it, or
the one it had. -/
theorem serve (holds : engine.memory.HoldsAt address value) {request : Request}
    (unstored : ∀ written, (address, written) ∉ engine.storedBy request) :
    (engine.serve request).2.memory.HoldsAt address ((request.sets? address).getD value) := by
  cases request with
  | step | stepMany count | scan | scanWithin limit => exact holds.run rfl unstored
  | read target => exact holds
  | setInput target forced => exact holds.serve_setInput target forced
  | clearMemory => exact holds.clear
  | reset => exact holds.resetMode

theorem serveAll (holds : engine.memory.HoldsAt address value) {requests : List Request}
    (unstored : ∀ written, (address, written) ∉ engine.storedByAll requests) :
    (engine.serveAll requests).memory.HoldsAt address
      (Request.setLast address requests value) := by
  induction requests generalizing engine value with
  | nil => exact holds
  | cons request rest inductionHypothesis =>
    simp only [storedByAll, List.mem_append, not_or] at unstored
    apply inductionHypothesis
    · apply holds.serve
      intro written
      exact (unstored written).1
    · intro written
      exact (unstored written).2

theorem read (holds : engine.memory.HoldsAt address value) :
    engine.read address = .ok value := by
  rw [Engine.read, Memory.read_eq_ok_iff.mpr holds.live]
  rfl

end Memory.HoldsAt

namespace Engine

variable {program : Program} {config : Config} {engine : Engine} {address : Nat}

theorem storedBy_of_hostCall {request : Request} (rests : request.isRun = false) :
    engine.storedBy request = [] := by
  have steps : (engine.serve request).2.steps - engine.steps = 0 := by
    cases request with
    | step | stepMany count | scan | scanWithin limit => cases rests
    | read target | clearMemory => exact Nat.sub_self _
    | setInput target value =>
      rw [serve_setInput]
      split <;> exact Nat.sub_self _
    | reset => exact Nat.zero_sub _
  rw [storedBy, steps]
  rfl

/-- Nothing is stored but by statements of the body. -/
theorem Coherent.storesTo (coherent : Coherent program config engine) {request : Request}
    {value : Bool} (member : (address, value) ∈ engine.storedBy request) :
    Statement.StoresTo program.body address := by
  cases runs : request.isRun with
  | false =>
    rw [storedBy_of_hostCall runs] at member
    cases member
  | true =>
    obtain ⟨count, same⟩ := engine.exists_stepMany_eq_serve runs
    rw [storedBy, same] at member
    obtain ⟨earlier, during, run, running, stored⟩ := mem_stores_stepMany member
    have located := (Coherent.invariant program config).stepMany coherent earlier
    rw [run] at located
    have inside : during.pc < during.program.body.length := by
      rw [located.program_eq, program.length_body]
      exact (located.running running).1
    obtain ⟨statement, rest, ahead⟩ := ahead_of_inside inside
    have written := Program.getElem?_body ahead
    rw [located.program_eq] at written
    refine ⟨statement, List.mem_of_getElem? written, ?_⟩
    rw [← (pc_stepped_of_body ahead).1]
    exact Instruction.eq_out_of_store? stored

theorem Coherent.unstored (coherent : Coherent program config engine)
    (untouched : ¬ Statement.StoresTo program.body address) (requests : List Request)
    (value : Bool) : (address, value) ∉ engine.storedByAll requests := by
  induction requests generalizing engine with
  | nil => exact List.not_mem_nil
  | cons request rest inductionHypothesis =>
    rw [storedByAll, List.mem_append, not_or]
    constructor
    · intro member
      exact untouched (coherent.storesTo member)
    · apply inductionHypothesis
      exact (Coherent.invariant program config).serve coherent request

/-- A forced cell has its value in both banks, and a read shows it, for as long as the host
does not set or clear it again and no store to it runs: whatever else is asked of the
engine, and whether it is granted or fails. A cell that no statement of the body stores to
has in both banks what the host gave it last. -/
theorem forced_cell_stays :
    (∀ (engine : Engine) address value, address < engine.memory.cells →
      ∃ forced, engine.setInput address value = .ok forced ∧
        ∀ later, (∀ request ∈ later, request.sets? address = none) →
          (∀ written, (address, written) ∉ forced.storedByAll later) →
          (forced.serveAll later).memory.HoldsAt address value ∧
            (forced.serveAll later).read address = .ok value) ∧
    ∀ (program : Program) (config : Config) requests address,
      address < config.bounds.cells config.bankSize →
      ¬ Statement.StoresTo program.body address →
      let engine := (start program config).serveAll requests
      engine.memory.HoldsAt address (Request.setLast address requests false) ∧
        engine.read address = .ok (Request.setLast address requests false) := by
  constructor
  · intro engine address value inside
    refine ⟨_, setInput_eq_ok_iff.mpr ⟨inside, rfl⟩, ?_⟩
    intro later unset unstored
    have forced : (engine.memory.setBoth address value).HoldsAt address value := .setBoth inside
    have holds := forced.serveAll unstored
    rw [Request.setLast_of_unset unset] at holds
    exact ⟨holds, holds.read⟩
  · intro program config requests address inside untouched engine
    have coherent := Coherent.start program config
    have blank : (start program config).memory.HoldsAt address false := .blank inside
    have holds := blank.serveAll (coherent.unstored untouched requests)
    exact ⟨holds, holds.read⟩

/-- A store to a forced cell that faults leaves the cell alone, and so do the scans, resets
and refusals around it. -/
theorem forced_cell_stays_past_faulting_store :
    let program : Program :=
      ⟨#[⟨1, ⟨.load false, some 0⟩⟩, ⟨2, ⟨.load true, some 0⟩⟩, ⟨3, ⟨.out, some 1⟩⟩], by decide⟩
    let config : Config := { bankSize := 1 }
    let later : List Request :=
      [.step, .setInput 2 false, .reset, .scan, .scan, .setInput 0 true, .reset, .scanWithin 2]
    ∃ forced, (start program config).setInput 1 true = .ok forced ∧
      (forced.serveAll later).memory.HoldsAt 1 true ∧
      ((start program config).serveAll later).memory.HoldsAt 0 true := by
  intro program config later
  obtain ⟨cells, hosts⟩ := forced_cell_stays
  obtain ⟨forced, set, stays⟩ := cells (start program config) 1 true (by decide)
  obtain ⟨_, rfl⟩ := setInput_eq_ok_iff.mp set
  have untouched : ¬ Statement.StoresTo program.body 0 := by
    rintro ⟨statement, member, store⟩
    have others : ∀ statement ∈ program.body, statement.instruction ≠ ⟨.out, some 0⟩ := by decide
    exact others statement member store
  refine ⟨_, set, (stays later (by decide) (by decide)).1, ?_⟩
  exact (hosts program config later 0 (by decide) untouched).1

end Engine

end RelayLadder
