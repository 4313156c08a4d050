import RelayLadder.Proofs.Instruction.Effect

/-!
The instruction table, row by row, and what becomes of an instruction that has no row.
An instruction runs exactly when a row lets it and its address exists, and then it
does what the row says.
-/

namespace RelayLadder.Instruction

/-- What an instruction makes of the stack, and what it stores, when it sees the given
cells. There is no row for an operand that is missing or not wanted, nor for a stack
that is too low or, for a store, too high. -/
inductive Row (cells : Nat → Bool) :
    Instruction → (before after : Stack) → (stored : Option (Nat × Bool)) → Prop where
  | finish (stack : Stack) : Row cells ⟨.finish, none⟩ stack stack none
  | load (address : Nat) (stack : Stack) :
      Row cells ⟨.load false, some address⟩ stack (cells address :: stack) none
  | loadNot (address : Nat) (stack : Stack) :
      Row cells ⟨.load true, some address⟩ stack ((!cells address) :: stack) none
  | out (address : Nat) (value : Bool) :
      Row cells ⟨.out, some address⟩ [value] [] (some (address, value))
  | or (address : Nat) (top : Bool) (rest : Stack) :
      Row cells ⟨.combine .or false, some address⟩ (top :: rest)
        ((top || cells address) :: rest) none
  | orNot (address : Nat) (top : Bool) (rest : Stack) :
      Row cells ⟨.combine .or true, some address⟩ (top :: rest)
        ((!(top || cells address)) :: rest) none
  | and (address : Nat) (top : Bool) (rest : Stack) :
      Row cells ⟨.combine .and false, some address⟩ (top :: rest)
        ((top && cells address) :: rest) none
  | andNot (address : Nat) (top : Bool) (rest : Stack) :
      Row cells ⟨.combine .and true, some address⟩ (top :: rest)
        ((!(top && cells address)) :: rest) none
  | orStack (first second : Bool) (rest : Stack) :
      Row cells ⟨.merge .or, none⟩ (first :: second :: rest) ((first || second) :: rest) none
  | andStack (first second : Bool) (rest : Stack) :
      Row cells ⟨.merge .and, none⟩ (first :: second :: rest) ((first && second) :: rest) none

/-- How an instruction breaks its row. The operand counts before the address, and the
address before the stack. -/
inductive Violates (instruction : Instruction) (extent : Extent) (depth : Nat) :
    FaultKind → Prop where
  | missing : instruction.opcode.takesAddress = true → instruction.operand = none →
      Violates instruction extent depth .missingArgument
  | unexpected {address : Nat} : instruction.opcode.takesAddress = false →
      instruction.operand = some address → Violates instruction extent depth .unexpectedArgument
  | outside {address : Nat} : instruction.opcode.takesAddress = true →
      instruction.operand = some address → extent.cells ≤ address →
      Violates instruction extent depth (.outOfBounds ⟨address, extent.size, extent.bounds⟩)
  | depth : instruction.opcode.takesAddress = instruction.operand.isSome →
      (∀ address, instruction.operand = some address → address < extent.cells) →
      instruction.opcode.rule.admits depth = false →
      Violates instruction extent depth (.stack ⟨instruction.opcode.rule, depth⟩)

variable {instruction : Instruction} {extent : Extent} {depth : Nat}

theorem operand_inside_of_accepted (accepted : instruction.objection? extent depth = none)
    {address : Nat} (named : instruction.operand = some address) : address < extent.cells := by
  unfold objection? at accepted
  grind

theorem isSome_operand_of_accepted (accepted : instruction.objection? extent depth = none) :
    instruction.opcode.takesAddress = instruction.operand.isSome := by
  unfold objection? at accepted
  grind

theorem depthObjection?_eq_some_iff {kind : FaultKind} :
    instruction.depthObjection? depth = some kind ↔
      instruction.opcode.rule.admits depth = false ∧
        kind = .stack ⟨instruction.opcode.rule, depth⟩ := by
  unfold depthObjection?
  cases instruction.opcode.rule.admits depth <;> simp [eq_comm]

/-- The objections of an instruction are the ways in which it breaks its row. -/
theorem objection?_eq_some_iff {kind : FaultKind} :
    instruction.objection? extent depth = some kind ↔
      instruction.Violates extent depth kind := by
  constructor
  · intro objected
    unfold objection? at objected
    split at objected
    next addressed missing =>
      cases objected
      exact .missing addressed missing
    next address bare present =>
      cases objected
      exact .unexpected bare present
    next bare absent =>
      obtain ⟨refused, rfl⟩ := depthObjection?_eq_some_iff.mp objected
      apply Violates.depth _ _ refused
      · rw [bare, absent, Option.isSome_none]
      · simp [absent]
    next address addressed present =>
      split at objected
      next inside =>
        obtain ⟨refused, rfl⟩ := depthObjection?_eq_some_iff.mp objected
        apply Violates.depth _ _ refused
        · rw [addressed, present, Option.isSome_some]
        · intro other named
          rw [present] at named
          cases named
          exact inside
      next beyond =>
        cases objected
        exact .outside addressed present (Nat.le_of_not_lt beyond)
  · intro violated
    unfold objection?
    cases violated with
    | missing addressed missing => simp only [addressed, missing]
    | unexpected bare present => simp only [bare, present]
    | outside addressed present beyond =>
      simp only [addressed, present, if_neg (Nat.not_lt_of_le beyond)]
    | depth fits inside refused =>
      have objected := depthObjection?_eq_some_iff.mpr ⟨refused, rfl⟩
      cases operand : instruction.operand with
      | none => simpa only [fits, operand, Option.isSome_none] using objected
      | some address =>
        simpa only [fits, operand, Option.isSome_some, if_pos (inside address operand)]
          using objected

/-- An instruction without an objection has a row. -/
theorem row_of_accepted {stack : Stack}
    (accepted : instruction.objection? extent stack.depth = none) (cells : Nat → Bool) :
    instruction.Row cells stack (instruction.evaluate cells stack)
      (instruction.store? stack) := by
  have admitted := admits_of_accepted accepted
  have fits := isSome_operand_of_accepted accepted
  rcases instruction with ⟨opcode, operand⟩
  cases opcode with
  | finish =>
    obtain rfl : operand = none := Option.not_isSome_iff_eq_none.mp (ne_true_of_eq_false fits.symm)
    exact .finish stack
  | load inverted =>
    obtain ⟨address, rfl⟩ := Option.isSome_iff_exists.mp fits.symm
    cases inverted with
    | false => simpa [evaluate, store?] using Row.load address stack
    | true => simpa [evaluate, store?] using Row.loadNot address stack
  | out =>
    obtain ⟨address, rfl⟩ := Option.isSome_iff_exists.mp fits.symm
    have single : stack.length = 1 := by
      simpa [Opcode.rule, DepthRule.admits, Stack.depth] using admitted
    obtain ⟨value, rfl⟩ := List.length_eq_one_iff.mp single
    exact .out address value
  | combine gate inverted =>
    obtain ⟨address, rfl⟩ := Option.isSome_iff_exists.mp fits.symm
    rcases stack with _ | ⟨top, rest⟩
    · simp [Opcode.rule, DepthRule.admits, Stack.depth] at admitted
    · cases gate with
      | or =>
        cases inverted with
        | false => simpa [evaluate, store?, Gate.apply] using Row.or address top rest
        | true => simpa [evaluate, store?, Gate.apply] using Row.orNot address top rest
      | and =>
        cases inverted with
        | false => simpa [evaluate, store?, Gate.apply] using Row.and address top rest
        | true => simpa [evaluate, store?, Gate.apply] using Row.andNot address top rest
  | merge gate =>
    obtain rfl : operand = none := Option.not_isSome_iff_eq_none.mp (ne_true_of_eq_false fits.symm)
    rcases stack with _ | ⟨first, _ | ⟨second, rest⟩⟩
    · simp [Opcode.rule, DepthRule.admits, Stack.depth] at admitted
    · simp [Opcode.rule, DepthRule.admits, Stack.depth] at admitted
    · cases gate with
      | or => exact .orStack first second rest
      | and => exact .andStack first second rest

/-- A row whose address exists meets no objection. -/
theorem accepted_of_row {cells : Nat → Bool} {stack after : Stack}
    {stored : Option (Nat × Bool)} (row : instruction.Row cells stack after stored)
    (inside : ∀ address, instruction.operand = some address → address < extent.cells) :
    instruction.objection? extent stack.depth = none := by
  cases row with
  | finish | orStack | andStack =>
    simp [objection?, depthObjection?, Opcode.takesAddress, Opcode.rule, DepthRule.admits,
      Stack.depth]
  | load address | loadNot address | out address | or address | orNot address | and address
  | andNot address =>
    have bound := inside address rfl
    simp [objection?, depthObjection?, Opcode.takesAddress, Opcode.rule, DepthRule.admits,
      Stack.depth, bound]

end RelayLadder.Instruction
