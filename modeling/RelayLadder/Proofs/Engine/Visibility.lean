import RelayLadder.Proofs.Engine.Step

/-!
What a read sees under the default policy. The banks change roles at every step,
so a store shows after an odd number of steps and hides after an even one, for as
long as the run lasts; what the host does shows at once and stays.
-/

namespace RelayLadder

/-- What may change a cell during a run. -/
inductive CellEvent where
  /-- An instruction pops a value into a cell. -/
  | stored (address : Nat) (value : Bool)
  /-- The host forces a cell. -/
  | forced (address : Nat) (value : Bool)
  /-- The host clears the memory. -/
  | cleared
  deriving DecidableEq

/-- Events with the number of steps that came before them, the latest event first. -/
abbrev History := List (Nat × CellEvent)

namespace CellEvent

/-- The value that an event gives to a cell, if it shows just before the step of
the given number. -/
def shown? (moment address : Nat) : Nat × CellEvent → Option Bool
  | (origin, .stored target value) =>
    if target = address ∧ (moment - origin) % 2 = 1 then some value else none
  | (_, .forced target value) => if target = address then some value else none
  | (_, .cleared) => some false

end CellEvent

namespace History

/-- The value of a cell by the latest event that shows, or off. -/
def latest (history : History) (moment address : Nat) : Bool :=
  (history.findSome? (CellEvent.shown? moment address)).getD false

/-- A store of the step of the given number, if it makes one. -/
def ofStore (moment : Nat) : Option (Nat × Bool) → History
  | none => []
  | some (address, value) => [(moment, .stored address value)]

@[simp] theorem latest_nil (moment address : Nat) : latest [] moment address = false := rfl

theorem latest_cons (entry : Nat × CellEvent) (history : History) (moment address : Nat) :
    latest (entry :: history) moment address =
      (CellEvent.shown? moment address entry).getD (history.latest moment address) := by
  unfold latest
  rw [List.findSome?_cons]
  cases CellEvent.shown? moment address entry <;> rfl

theorem latest_of_hidden {later earlier : History} {entry : Nat × CellEvent}
    {moment address : Nat} (hidden : CellEvent.shown? moment address entry = none) :
    latest (later ++ entry :: earlier) moment address =
      latest (later ++ earlier) moment address := by
  induction later with
  | nil => simp [latest_cons, hidden]
  | cons first later inductionHypothesis => simp [latest_cons, inductionHypothesis]

theorem latest_of_shown {later earlier : History} {entry : Nat × CellEvent}
    {moment address : Nat} {value : Bool}
    (shown : CellEvent.shown? moment address entry = some value)
    (last : ∀ other ∈ later, CellEvent.shown? moment address other = none) :
    latest (later ++ entry :: earlier) moment address = value := by
  induction later with
  | nil => simp [latest_cons, shown]
  | cons first later inductionHypothesis =>
    have skipped := last first (by simp)
    have rest := inductionHypothesis fun other membership => last other (by simp [membership])
    simpa [latest_cons, skipped] using rest

/-- What shows now shows again two steps later. -/
theorem latest_add_two {history : History} {moment : Nat}
    (past : ∀ origin address value,
      (origin, CellEvent.stored address value) ∈ history → origin < moment)
    (address : Nat) :
    history.latest (moment + 2) address = history.latest moment address := by
  induction history with
  | nil => rfl
  | cons entry history inductionHypothesis =>
    have rest := inductionHypothesis fun origin target value membership =>
      past origin target value (by simp [membership])
    rcases entry with ⟨origin, event⟩
    rw [latest_cons, latest_cons, rest]
    cases event with
    | stored target value =>
      have before := past origin target value (by simp)
      have parity : (moment + 2 - origin) % 2 = (moment - origin) % 2 := by omega
      simp only [CellEvent.shown?, parity]
    | forced target value => rfl
    | cleared => rfl

theorem origin_of_mem_ofStore {moment origin address : Nat} {value : Bool}
    {stored : Option (Nat × Bool)}
    (membership : (origin, CellEvent.stored address value) ∈ ofStore moment stored) :
    origin = moment := by
  cases stored with
  | none => simp [ofStore] at membership
  | some entry =>
    simp only [ofStore, List.mem_singleton] at membership
    exact congrArg Prod.fst membership

theorem latest_ofStore_add_one (moment : Nat) (stored : Option (Nat × Bool)) (history : History)
    (address : Nat) :
    latest (ofStore moment stored ++ history) (moment + 1) address =
      Memory.afterStores (history.latest (moment + 1)) stored.toList address := by
  cases stored with
  | none => rfl
  | some entry =>
    rcases entry with ⟨target, value⟩
    by_cases same : address = target
    · subst same
      simp [ofStore, latest_cons, CellEvent.shown?, Memory.afterStores]
    · simp [ofStore, latest_cons, CellEvent.shown?, Memory.afterStores, same, Ne.symm same]

theorem latest_ofStore_add_two (moment : Nat) (stored : Option (Nat × Bool)) (history : History)
    (address : Nat) :
    latest (ofStore moment stored ++ history) (moment + 2) address =
      history.latest (moment + 2) address := by
  cases stored with
  | none => rfl
  | some entry => simp [ofStore, latest_cons, CellEvent.shown?]

end History

namespace Engine

/-- A run from the start with its history: some number of steps, all of which
succeeded, with cells forced and memory cleared in between. -/
inductive Traced (program : Program) (config : Config) : Nat → History → Engine → Prop where
  | start : Traced program config 0 [] (.start program config)
  | step {moment history engine next} :
      Traced program config moment history engine →
      engine.step = (.ok (), next) →
      Traced program config (moment + 1) (.ofStore moment engine.store? ++ history) next
  | setInput {moment history engine next address value} :
      Traced program config moment history engine →
      engine.setInput address value = .ok next →
      Traced program config moment ((moment, .forced address value) :: history) next
  | clearMemory {moment history engine} :
      Traced program config moment history engine →
      Traced program config moment ((moment, .cleared) :: history) engine.clearMemory

/-- The live bank holds what shows now, the pending bank what shows a step later. -/
structure Visibility (extent : Extent) (moment : Nat) (history : History) (engine : Engine) :
    Prop where
  policy : engine.toggle = .perInstruction
  extent : engine.memory.extent = extent
  past : ∀ origin address value, (origin, .stored address value) ∈ history → origin < moment
  live : ∀ address, engine.memory.liveAt address = history.latest moment address
  pending : ∀ address, engine.memory.pendingAt address = history.latest (moment + 1) address

namespace Visibility

variable {extent : Extent} {moment : Nat} {history : History} {engine next : Engine}

theorem step (visibility : Visibility extent moment history engine)
    (stepped : engine.step = (.ok (), next)) :
    Visibility extent (moment + 1) (.ofStore moment engine.store? ++ history) next := by
  obtain ⟨running, accepted, rfl⟩ := step_eq_ok_iff.mp stepped
  have live := liveAt_stepped_of_perInstruction visibility.policy accepted
  have pending := pendingAt_stepped_of_perInstruction visibility.policy
  refine ⟨visibility.policy, by simp [visibility.extent], ?_, ?_, ?_⟩
  · intro origin address value membership
    rcases List.mem_append.mp membership with new | old
    · rw [History.origin_of_mem_ofStore new]
      exact Nat.lt_succ_self moment
    · exact Nat.lt_succ_of_lt (visibility.past origin address value old)
  · intro address
    rw [live, funext visibility.pending, History.latest_ofStore_add_one]
  · intro address
    -- The bank that was live is pending now, and is live again two steps after it was.
    rw [pending, visibility.live, History.latest_ofStore_add_two,
      History.latest_add_two visibility.past]

theorem setInput (visibility : Visibility extent moment history engine) {address : Nat}
    {value : Bool} (forced : engine.setInput address value = .ok next) :
    Visibility extent moment ((moment, .forced address value) :: history) next := by
  obtain ⟨inside, rfl⟩ := setInput_eq_ok_iff.mp forced
  have shows (later other : Nat) :
      History.latest ((moment, .forced address value) :: history) later other =
        Function.update (history.latest later) address value other := by
    by_cases same : other = address
    · subst same
      simp [History.latest_cons, CellEvent.shown?]
    · simp [History.latest_cons, CellEvent.shown?, same, Ne.symm same]
  refine ⟨visibility.policy, visibility.extent, ?_, ?_, ?_⟩
  · intro origin target stored membership
    exact visibility.past origin target stored (by simpa using membership)
  · intro other
    rw [shows, Memory.liveAt_setBoth value inside, funext visibility.live]
  · intro other
    rw [shows, Memory.pendingAt_setBoth value inside, funext visibility.pending]

theorem clearMemory (visibility : Visibility extent moment history engine) :
    Visibility extent moment ((moment, .cleared) :: history) engine.clearMemory := by
  refine ⟨visibility.policy, visibility.extent, ?_, ?_, ?_⟩
  · intro origin address value membership
    exact visibility.past origin address value (by simpa using membership)
  · intro address
    simp [Engine.clearMemory, History.latest_cons, CellEvent.shown?]
  · intro address
    simp [Engine.clearMemory, History.latest_cons, CellEvent.shown?]

end Visibility

theorem Traced.visibility {program : Program} {config : Config} {moment : Nat}
    {history : History} {engine : Engine} (policy : config.toggle = .perInstruction)
    (traced : Traced program config moment history engine) :
    Visibility ⟨config.bankSize, config.bounds⟩ moment history engine := by
  induction traced with
  | start =>
    refine ⟨policy, rfl, by simp, ?_, ?_⟩
    · intro address
      simp [Engine.start, ofMemory]
    · intro address
      simp [Engine.start, ofMemory]
  | step _ stepped inductionHypothesis => exact inductionHypothesis.step stepped
  | setInput _ forced inductionHypothesis => exact inductionHypothesis.setInput forced
  | clearMemory _ inductionHypothesis => exact inductionHypothesis.clearMemory

/-- Under the default policy a read gives the value of the latest event that shows.
A store of the step `origin` never shows after an even number of steps, as if it
had not happened; after an odd number it shows until a later event does. -/
theorem read_eq_latest {program : Program} {config : Config} {moment : Nat}
    {history : History} {engine : Engine} (policy : config.toggle = .perInstruction)
    (traced : Traced program config moment history engine) {address : Nat}
    (inside : address < config.bounds.cells config.bankSize) :
    engine.read address = .ok (history.latest moment address) ∧
      ∀ later earlier origin value,
        history = later ++ (origin, .stored address value) :: earlier →
          origin < moment ∧
          ((moment - origin) % 2 = 0 →
            engine.read address = .ok (History.latest (later ++ earlier) moment address)) ∧
          ((moment - origin) % 2 = 1 →
            (∀ event ∈ later, CellEvent.shown? moment address event = none) →
            engine.read address = .ok value) := by
  have visibility := traced.visibility policy
  have cells : address < engine.memory.cells := by
    rw [← Memory.cells_extent, visibility.extent]
    exact inside
  have value : engine.read address = .ok (history.latest moment address) := by
    rw [Engine.read, Memory.read_eq_ok cells, visibility.live]
    rfl
  refine ⟨value, ?_⟩
  rintro later earlier origin stored rfl
  refine ⟨visibility.past origin address stored (by simp), ?_, ?_⟩
  · intro even
    have hidden : CellEvent.shown? moment address (origin, .stored address stored) = none := by
      simp [CellEvent.shown?, even]
    rw [value, History.latest_of_hidden hidden]
  · intro odd last
    have shown : CellEvent.shown? moment address (origin, .stored address stored) =
        some stored := by
      simp [CellEvent.shown?, odd]
    rw [value, History.latest_of_shown shown last]

/-- A store at step 1 of a run that comes around to the start hides before step 3,
where the value that was forced shows again. -/
theorem read_eq_forced_around_wrap :
    let program : Program := ⟨#[⟨1, ⟨.load true, some 0⟩⟩, ⟨2, ⟨.out, some 0⟩⟩], by decide⟩
    let history : History := [(1, .stored 0 false), (0, .forced 0 true)]
    ∃ engine, Traced program { bankSize := 0 } 3 history engine ∧ engine.read 0 = .ok true := by
  intro program history
  let first := { start program { bankSize := 0 } with
    memory := (Memory.blank 0 .inclusive).setBoth 0 true }
  have forced : Traced program { bankSize := 0 } 0 [(0, .forced 0 true)] first :=
    .setInput .start rfl
  have loaded : Traced program { bankSize := 0 } 1 [(0, .forced 0 true)] first.stepped :=
    .step forced (step_of_accepted rfl (by decide))
  have stored : Traced program { bankSize := 0 } 2 history first.stepped.stepped :=
    .step loaded (step_of_accepted rfl (by decide))
  have quiet : first.stepped.stepped.store? = none := by decide
  have reloaded : Traced program { bankSize := 0 } 3 history first.stepped.stepped.stepped := by
    have step := Traced.step stored (step_of_accepted rfl (by decide))
    rw [quiet] at step
    exact step
  exact ⟨_, reloaded, (read_eq_latest rfl reloaded (by decide)).1⟩

end Engine

end RelayLadder
