import RelayLadder.Proofs.Instruction.Effect

/-!
Logic chains: boolean expressions over cells, in the forms that instructions can
evaluate, and their postfix code. Code is read back with a stack of chains in
place of truth values. That gives every chain from its code, so that no code has
two chains.
-/

namespace RelayLadder

/-- A boolean expression over cells. The second operand of a combination is a cell;
two expressions are merged. -/
inductive Chain where
  | load (inverted : Bool) (address : Nat)
  | combine (chain : Chain) (gate : Gate) (inverted : Bool) (address : Nat)
  | merge (left right : Chain) (gate : Gate)
  deriving DecidableEq

namespace Chain

def code : Chain → List Instruction
  | load inverted address => [⟨.load inverted, some address⟩]
  | combine chain gate inverted address =>
    chain.code ++ [⟨.combine gate inverted, some address⟩]
  | merge left right gate => left.code ++ right.code ++ [⟨.merge gate, none⟩]

def eval (cells : Nat → Bool) : Chain → Bool
  | load false address => cells address
  | load true address => !cells address
  | combine chain .or false address => chain.eval cells || cells address
  | combine chain .or true address => !(chain.eval cells || cells address)
  | combine chain .and false address => chain.eval cells && cells address
  | combine chain .and true address => !(chain.eval cells && cells address)
  | merge left right .or => left.eval cells || right.eval cells
  | merge left right .and => left.eval cells && right.eval cells

/-- The cells that a chain names. -/
def addresses : Chain → List Nat
  | load _ address => [address]
  | combine chain _ _ address => chain.addresses ++ [address]
  | merge left right _ => left.addresses ++ right.addresses

/-- Puts an instruction on top of the chains that it takes, the topmost of which
comes first. -/
def absorb : Instruction → List Chain → Option (List Chain)
  | ⟨.load inverted, some address⟩, chains => some (load inverted address :: chains)
  | ⟨.combine gate inverted, some address⟩, chain :: chains =>
    some (combine chain gate inverted address :: chains)
  | ⟨.merge gate, none⟩, right :: left :: chains => some (merge left right gate :: chains)
  | _, _ => none

def decode : List Instruction → List Chain → Option (List Chain)
  | [], chains => some chains
  | instruction :: rest, chains => (absorb instruction chains).bind (decode rest)

/-- The code of a stack of chains, from the bottom up. -/
def codeAll (chains : List Chain) : List Instruction := chains.reverse.flatMap code

@[simp] theorem codeAll_nil : codeAll [] = [] := rfl

@[simp] theorem codeAll_cons (chain : Chain) (chains : List Chain) :
    codeAll (chain :: chains) = codeAll chains ++ chain.code := by
  simp [codeAll]

theorem decode_code (chain : Chain) (rest : List Instruction) (chains : List Chain) :
    decode (chain.code ++ rest) chains = decode rest (chain :: chains) := by
  induction chain generalizing rest chains with
  | load inverted address => rfl
  | combine chain gate inverted address inductionHypothesis =>
    rw [code, List.append_assoc, inductionHypothesis]
    rfl
  | merge left right gate leftHypothesis rightHypothesis =>
    rw [code, List.append_assoc, List.append_assoc, leftHypothesis, rightHypothesis]
    rfl

theorem codeAll_absorb {instruction : Instruction} {chains next : List Chain}
    (absorbed : absorb instruction chains = some next) :
    codeAll next = codeAll chains ++ [instruction] := by
  unfold absorb at absorbed
  split at absorbed
  · cases absorbed
    simp [code]
  · cases absorbed
    simp [code]
  · cases absorbed
    simp [code]
  · contradiction

theorem codeAll_decode {instructions : List Instruction} {chains final : List Chain}
    (decoded : decode instructions chains = some final) :
    codeAll final = codeAll chains ++ instructions := by
  induction instructions generalizing chains with
  | nil =>
    cases decoded
    simp
  | cons instruction rest inductionHypothesis =>
    obtain ⟨next, absorbed, following⟩ := Option.bind_eq_some_iff.mp decoded
    rw [inductionHypothesis following, codeAll_absorb absorbed, List.append_assoc]
    rfl

/-- Decoding finds a chain exactly when the instructions are its code. -/
theorem decode_eq_singleton_iff {instructions : List Instruction} {chain : Chain} :
    decode instructions [] = some [chain] ↔ chain.code = instructions := by
  constructor
  · intro decoded
    simpa using codeAll_decode decoded
  · rintro rfl
    have decoded := decode_code chain [] []
    rwa [List.append_nil] at decoded

theorem code_injective : Function.Injective code := by
  intro first second same
  have decoded := decode_eq_singleton_iff.mpr same
  have other := decode_eq_singleton_iff.mpr (rfl : second.code = second.code)
  have singletons := Option.some.inj (decoded.symm.trans other)
  exact List.head_eq_of_cons_eq singletons

end Chain

end RelayLadder
