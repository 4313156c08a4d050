import RelayLadder.Numeral

/-!
Two-bank memory. Reads see the live bank and writes go to the pending bank; the
banks change roles when the memory toggles.
-/

namespace RelayLadder

/-- Which addresses a bank of a given size has. -/
inductive Bounds where
  /-- Addresses up to and including the size. -/
  | inclusive
  /-- Addresses below the size. -/
  | strict
  deriving DecidableEq

/-- The number of cells in a bank of a given size. -/
def Bounds.cells : Bounds → Nat → Nat
  | .inclusive, size => size + 1
  | .strict, size => size

def Bounds.name : Bounds → String
  | .inclusive => "Inclusive"
  | .strict => "Strict"

/-- An access to an address that the memory does not have. -/
structure OutOfBounds where
  address : Nat
  size : Nat
  bounds : Bounds
  deriving DecidableEq

def OutOfBounds.message (error : OutOfBounds) : String :=
  "address 0x" ++ hexadecimal 3 error.address ++ " out of bounds for bank size 0x" ++
    hexadecimal 3 error.size ++ " (" ++ error.bounds.name ++ ")"

/-- Two banks of equal length. The banks are held by role; `mode` tells which of
the two physical banks is live and changes whenever the roles change. -/
@[ext]
structure Memory where
  size : Nat
  bounds : Bounds
  live : Array Bool
  pending : Array Bool
  mode : Bool
  live_size : live.size = bounds.cells size
  pending_size : pending.size = bounds.cells size
  deriving DecidableEq

namespace Memory

def defaultSize : Nat := 256

/-- Memory with every cell off. -/
def blank (size : Nat) (bounds : Bounds) : Memory where
  size := size
  bounds := bounds
  live := Array.replicate (bounds.cells size) false
  pending := Array.replicate (bounds.cells size) false
  mode := false
  live_size := Array.size_replicate
  pending_size := Array.size_replicate

/-- The longest bank that can be allocated: its cells are counted by a signed word. -/
def longestBank : Nat := 0x7FFFFFFFFFFFFFFF

/-- Blank memory, if its banks can be allocated. -/
def allocate? (size : Nat) (bounds : Bounds) : Option Memory :=
  if bounds.cells size ≤ longestBank then some (blank size bounds) else none

/-- The number of cells in each bank. -/
def cells (memory : Memory) : Nat := memory.bounds.cells memory.size

@[simp] theorem size_live (memory : Memory) : memory.live.size = memory.cells :=
  memory.live_size

@[simp] theorem size_pending (memory : Memory) : memory.pending.size = memory.cells :=
  memory.pending_size

/-- The error of an access to a missing address. -/
def outOfBounds (memory : Memory) (address : Nat) : OutOfBounds :=
  ⟨address, memory.size, memory.bounds⟩

/-- Passes on an address that the memory has. -/
def check (memory : Memory) (address : Nat) : Except OutOfBounds Nat :=
  if address < memory.cells then .ok address else .error (memory.outOfBounds address)

theorem check_eq_ok_iff {memory : Memory} {address result : Nat} :
    memory.check address = .ok result ↔ address < memory.cells ∧ address = result := by
  by_cases inside : address < memory.cells <;> simp [check, inside]

/-- The value of a live cell. -/
def read (memory : Memory) (address : Nat) : Except OutOfBounds Bool :=
  match memory.live[address]? with
  | some value => .ok value
  | none => .error (memory.outOfBounds address)

theorem read_eq_ok_iff {memory : Memory} {address : Nat} {value : Bool} :
    memory.read address = .ok value ↔ memory.live[address]? = some value := by
  unfold read
  split <;> simp_all

/-- The memory with one cell of the pending bank set. -/
def setPending (memory : Memory) (address : Nat) (value : Bool) : Memory :=
  { memory with
    pending := memory.pending.setIfInBounds address value
    pending_size := Array.size_setIfInBounds.trans memory.pending_size }

/-- The memory with one cell of both banks set. -/
def setBoth (memory : Memory) (address : Nat) (value : Bool) : Memory :=
  { memory with
    live := memory.live.setIfInBounds address value
    pending := memory.pending.setIfInBounds address value
    live_size := Array.size_setIfInBounds.trans memory.live_size
    pending_size := Array.size_setIfInBounds.trans memory.pending_size }

/-- Stores a value in the pending bank. -/
def write (memory : Memory) (address : Nat) (value : Bool) : Except OutOfBounds Memory :=
  if address < memory.cells then .ok (memory.setPending address value)
  else .error (memory.outOfBounds address)

/-- Stores a value in both banks. -/
def setInput (memory : Memory) (address : Nat) (value : Bool) : Except OutOfBounds Memory :=
  if address < memory.cells then .ok (memory.setBoth address value)
  else .error (memory.outOfBounds address)

/-- Exchanges the roles of the banks. -/
def toggle (memory : Memory) : Memory :=
  { memory with
    live := memory.pending
    pending := memory.live
    mode := !memory.mode
    live_size := memory.pending_size
    pending_size := memory.live_size }

/-- Makes the pending bank live and starts the new pending bank as a copy of it. -/
def commit (memory : Memory) : Memory :=
  { memory with
    live := memory.pending
    mode := !memory.mode
    live_size := memory.pending_size }

/-- Gives the banks the roles that they have at the start. -/
def resetMode (memory : Memory) : Memory :=
  if memory.mode then memory.toggle else memory

@[simp] theorem mode_resetMode (memory : Memory) : memory.resetMode.mode = false := by
  unfold resetMode
  split <;> simp_all [toggle]

/-- Turns every cell of both banks off. -/
def clear (memory : Memory) : Memory :=
  { memory with
    live := Array.replicate memory.cells false
    pending := Array.replicate memory.cells false
    live_size := Array.size_replicate
    pending_size := Array.size_replicate }

end Memory

end RelayLadder
