import Mathlib.Logic.Function.Basic
import RelayLadder.Memory.Basic

/-!
What an operation leaves of a memory: its extent, which never changes, and its
banks as functions of the address. A missing cell is off, so that the effect on
a bank is an equation between functions.
-/

namespace RelayLadder

/-- The size of the banks and the rule for their addresses. -/
structure Extent where
  size : Nat
  bounds : Bounds
  deriving DecidableEq

def Extent.cells (extent : Extent) : Nat := extent.bounds.cells extent.size

namespace Memory

def extent (memory : Memory) : Extent := ⟨memory.size, memory.bounds⟩

@[simp] theorem cells_extent (memory : Memory) : memory.extent.cells = memory.cells := rfl

@[simp] theorem extent_setPending (memory : Memory) (address : Nat) (value : Bool) :
    (memory.setPending address value).extent = memory.extent := rfl

@[simp] theorem extent_setBoth (memory : Memory) (address : Nat) (value : Bool) :
    (memory.setBoth address value).extent = memory.extent := rfl

@[simp] theorem extent_toggle (memory : Memory) : memory.toggle.extent = memory.extent := rfl

@[simp] theorem extent_commit (memory : Memory) : memory.commit.extent = memory.extent := rfl

@[simp] theorem extent_clear (memory : Memory) : memory.clear.extent = memory.extent := rfl

@[simp] theorem extent_resetMode (memory : Memory) :
    memory.resetMode.extent = memory.extent := by
  unfold resetMode
  split <;> rfl

def liveAt (memory : Memory) (address : Nat) : Bool := memory.live[address]?.getD false

def pendingAt (memory : Memory) (address : Nat) : Bool := memory.pending[address]?.getD false

theorem read_eq (memory : Memory) (address : Nat) :
    memory.read address =
      if address < memory.cells then .ok (memory.liveAt address)
      else .error (memory.outOfBounds address) := by
  by_cases inside : address < memory.cells <;> simp [read, liveAt, inside]

theorem read_eq_ok {memory : Memory} {address : Nat} (inside : address < memory.cells) :
    memory.read address = .ok (memory.liveAt address) := by
  rw [read_eq, if_pos inside]

theorem outOfBounds_congr {left right : Memory} (extent : left.extent = right.extent)
    (address : Nat) : left.outOfBounds address = right.outOfBounds address :=
  congrArg (fun extent : Extent => OutOfBounds.mk address extent.size extent.bounds) extent

theorem read_congr {left right : Memory} {address : Nat} (extent : left.extent = right.extent)
    (same : left.liveAt address = right.liveAt address) :
    left.read address = right.read address := by
  have cells : left.cells = right.cells := congrArg Extent.cells extent
  rw [read_eq, read_eq, cells, same, outOfBounds_congr extent]

theorem liveAt_of_outside {memory : Memory} {address : Nat} (outside : memory.cells ≤ address) :
    memory.liveAt address = false := by
  simp [liveAt, outside]

/-- Banks that agree on every cell are the same bank. -/
theorem bank_eq_of_cells {left right : Array Bool} (sizes : left.size = right.size)
    (same : ∀ address : Nat, left[address]?.getD false = right[address]?.getD false) :
    left = right := by
  apply Array.ext sizes
  intro address leftBound rightBound
  have cell := same address
  rwa [Array.getElem?_eq_getElem leftBound, Array.getElem?_eq_getElem rightBound] at cell

theorem live_eq_pending_iff (memory : Memory) :
    memory.live = memory.pending ↔ memory.liveAt = memory.pendingAt := by
  constructor
  · intro same
    funext address
    simp [liveAt, pendingAt, same]
  · intro same
    have sizes : memory.live.size = memory.pending.size := by simp
    exact bank_eq_of_cells sizes (congrFun same)

/-- A memory is its extent, its mode and its cells. -/
theorem eq_of_cells {left right : Memory} (extent : left.extent = right.extent)
    (mode : left.mode = right.mode) (live : left.liveAt = right.liveAt)
    (pending : left.pendingAt = right.pendingAt) : left = right := by
  have cells : left.cells = right.cells := congrArg Extent.cells extent
  apply Memory.ext
  · exact congrArg Extent.size extent
  · exact congrArg Extent.bounds extent
  · exact bank_eq_of_cells (by simp [cells]) (congrFun live)
  · exact bank_eq_of_cells (by simp [cells]) (congrFun pending)
  · exact mode

@[simp] theorem liveAt_blank (size : Nat) (bounds : Bounds) :
    (blank size bounds).liveAt = fun _ => false := by
  funext address
  by_cases inside : address < bounds.cells size <;> simp [liveAt, blank, inside]

@[simp] theorem pendingAt_blank (size : Nat) (bounds : Bounds) :
    (blank size bounds).pendingAt = fun _ => false := by
  funext address
  by_cases inside : address < bounds.cells size <;> simp [pendingAt, blank, inside]

@[simp] theorem liveAt_clear (memory : Memory) : memory.clear.liveAt = fun _ => false := by
  funext address
  by_cases inside : address < memory.cells <;> simp [liveAt, clear, inside]

@[simp] theorem pendingAt_clear (memory : Memory) :
    memory.clear.pendingAt = fun _ => false := by
  funext address
  by_cases inside : address < memory.cells <;> simp [pendingAt, clear, inside]

@[simp] theorem liveAt_toggle (memory : Memory) : memory.toggle.liveAt = memory.pendingAt := rfl

@[simp] theorem pendingAt_toggle (memory : Memory) : memory.toggle.pendingAt = memory.liveAt := rfl

@[simp] theorem liveAt_commit (memory : Memory) : memory.commit.liveAt = memory.pendingAt := rfl

@[simp] theorem pendingAt_commit (memory : Memory) :
    memory.commit.pendingAt = memory.pendingAt := rfl

@[simp] theorem liveAt_setPending (memory : Memory) (address : Nat) (value : Bool) :
    (memory.setPending address value).liveAt = memory.liveAt := rfl

theorem pendingAt_setPending {memory : Memory} {address : Nat} (value : Bool)
    (inside : address < memory.cells) :
    (memory.setPending address value).pendingAt =
      Function.update memory.pendingAt address value := by
  funext other
  by_cases same : other = address
  · subst same
    simp [pendingAt, setPending, inside]
  · simp [pendingAt, setPending, Function.update_of_ne same, Ne.symm same]

theorem liveAt_setBoth {memory : Memory} {address : Nat} (value : Bool)
    (inside : address < memory.cells) :
    (memory.setBoth address value).liveAt = Function.update memory.liveAt address value := by
  funext other
  by_cases same : other = address
  · subst same
    simp [liveAt, setBoth, inside]
  · simp [liveAt, setBoth, Function.update_of_ne same, Ne.symm same]

theorem pendingAt_setBoth {memory : Memory} {address : Nat} (value : Bool)
    (inside : address < memory.cells) :
    (memory.setBoth address value).pendingAt =
      Function.update memory.pendingAt address value :=
  pendingAt_setPending value inside

theorem liveAt_resetMode_eq (memory : Memory) :
    memory.resetMode.liveAt = if memory.mode then memory.pendingAt else memory.liveAt := by
  unfold resetMode
  split <;> rfl

theorem pendingAt_resetMode_eq (memory : Memory) :
    memory.resetMode.pendingAt = if memory.mode then memory.liveAt else memory.pendingAt := by
  unfold resetMode
  split <;> rfl

/-- Equal banks can change roles unnoticed. -/
theorem liveAt_resetMode {memory : Memory} (settled : memory.liveAt = memory.pendingAt) :
    memory.resetMode.liveAt = memory.liveAt ∧ memory.resetMode.pendingAt = memory.pendingAt := by
  unfold resetMode
  split
  · exact ⟨settled.symm, settled⟩
  · exact ⟨rfl, rfl⟩

/-- The cells after stores, the oldest of which comes first. -/
def afterStores (cells : Nat → Bool) (stores : List (Nat × Bool)) : Nat → Bool :=
  stores.foldl (fun current entry => Function.update current entry.1 entry.2) cells

@[simp] theorem afterStores_nil (cells : Nat → Bool) : afterStores cells [] = cells := rfl

theorem afterStores_append (cells : Nat → Bool) (first second : List (Nat × Bool)) :
    afterStores cells (first ++ second) = afterStores (afterStores cells first) second := by
  simp [afterStores]

/-- The last store to a cell decides its value. -/
theorem afterStores_apply (cells : Nat → Bool) (stores : List (Nat × Bool)) (address : Nat) :
    afterStores cells stores address =
      (stores.reverse.lookup address).getD (cells address) := by
  induction stores generalizing cells with
  | nil => simp
  | cons entry stores inductionHypothesis =>
    rcases entry with ⟨target, value⟩
    have rest := inductionHypothesis (Function.update cells target value)
    rw [List.reverse_cons, List.lookup_append]
    by_cases same : address = target
    · subst same
      cases found : stores.reverse.lookup address <;> simp_all [afterStores]
    · have different : (address == target) = false := by simpa using same
      simpa [afterStores, Function.update_of_ne same, List.lookup_cons, different] using rest

theorem afterStores_congr {left right : Nat → Bool} {address : Nat}
    (same : left address = right address) (stores : List (Nat × Bool)) :
    afterStores left stores address = afterStores right stores address := by
  rw [afterStores_apply, afterStores_apply, same]

end Memory

end RelayLadder
