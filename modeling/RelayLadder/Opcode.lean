import RelayLadder.Stack

/-!
The opcode catalogue: what each opcode does, how it is spelled, whether it takes
an address, and the stack depth it asks for.
-/

namespace RelayLadder

/-- How two truth values are joined. -/
inductive Gate where
  | or
  | and
  deriving DecidableEq

def Gate.apply : Gate → Bool → Bool → Bool
  | .or, left, right => left || right
  | .and, left, right => left && right

theorem Gate.apply_comm (gate : Gate) (left right : Bool) :
    gate.apply left right = gate.apply right left := by
  cases gate <;> cases left <;> cases right <;> rfl

/-- The operations of a ladder program. An inverted operation complements the
value that it pushes. -/
inductive Opcode where
  /-- Ends the scan. -/
  | finish
  /-- Pushes a cell. -/
  | load (inverted : Bool)
  /-- Pops the one value of the stack into a cell. -/
  | out
  /-- Joins the top of the stack with a cell. -/
  | combine (gate : Gate) (inverted : Bool)
  /-- Joins the two topmost values. -/
  | merge (gate : Gate)
  deriving DecidableEq

namespace Opcode

/-- The catalogue in its listed order. -/
def all : List Opcode :=
  [finish, load false, load true, out, combine .or false, combine .or true, combine .and false,
   combine .and true, merge .or, merge .and]

theorem mem_all (opcode : Opcode) : opcode ∈ all := by
  cases opcode with
  | finish => decide
  | load inverted => cases inverted <;> decide
  | out => decide
  | combine gate inverted => cases gate <;> cases inverted <;> decide
  | merge gate => cases gate <;> decide

/-- The spelling in source text. -/
def mnemonic : Opcode → String
  | finish => "END"
  | load false => "LD"
  | load true => "LDNOT"
  | out => "OUT"
  | combine .or false => "OR"
  | combine .or true => "ORNOT"
  | combine .and false => "AND"
  | combine .and true => "ANDNOT"
  | merge .or => "ORSTACK"
  | merge .and => "ANDSTACK"

theorem mnemonic_injective {left right : Opcode} (h : left.mnemonic = right.mnemonic) :
    left = right := by
  have distinct : ∀ a ∈ all, ∀ b ∈ all, a.mnemonic = b.mnemonic → a = b := by decide
  exact distinct left left.mem_all right right.mem_all h

def ofMnemonic? (name : String) : Option Opcode :=
  all.find? fun opcode => opcode.mnemonic == name

theorem ofMnemonic?_eq_some_iff {name : String} {opcode : Opcode} :
    ofMnemonic? name = some opcode ↔ opcode.mnemonic = name := by
  constructor
  · intro found
    simpa using List.find?_some found
  · rintro rfl
    have present : (all.find? fun other => other.mnemonic == opcode.mnemonic).isSome := by
      rw [List.find?_isSome]
      exact ⟨opcode, opcode.mem_all, by simp⟩
    obtain ⟨other, found⟩ := Option.isSome_iff_exists.1 present
    have same : other.mnemonic = opcode.mnemonic := by simpa using List.find?_some found
    rw [ofMnemonic?, found, mnemonic_injective same]

/-- Whether the opcode works on a cell and so needs an address. -/
def takesAddress : Opcode → Bool
  | finish | merge _ => false
  | load _ | out | combine _ _ => true

/-- The stack depth that the opcode asks for before it runs. -/
def rule : Opcode → DepthRule
  | finish | load _ => .any
  | out => .exactly 1
  | combine _ _ => .atLeast 1
  | merge _ => .atLeast 2

end Opcode

end RelayLadder
