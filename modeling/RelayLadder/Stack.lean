import RelayLadder.Numeral

/-!
The evaluation stack and the depth rules that instructions place on it.
-/

namespace RelayLadder

/-- The stack depths at which an instruction may run. -/
inductive DepthRule where
  | any
  | exactly (depth : Nat)
  | atLeast (depth : Nat)
  deriving DecidableEq

namespace DepthRule

def admits : DepthRule → Nat → Bool
  | any, _ => true
  | exactly required, depth => depth == required
  | atLeast required, depth => decide (required ≤ depth)

def text : DepthRule → String
  | any => "any depth"
  | exactly depth => "exactly " ++ decimal depth
  | atLeast depth => "at least " ++ decimal depth

end DepthRule

/-- A depth that a rule does not admit. -/
structure DepthViolation where
  rule : DepthRule
  depth : Nat
  deriving DecidableEq

def DepthViolation.message (violation : DepthViolation) : String :=
  "stack depth " ++ decimal violation.depth ++ " violates " ++ violation.rule.text

/-- Truth values under evaluation, the topmost first. -/
abbrev Stack := List Bool

namespace Stack

def empty : Stack := []

def depth (stack : Stack) : Nat := stack.length

/-- The values from the bottom to the top. -/
def bottomUp (stack : Stack) : List Bool := stack.reverse

def push (stack : Stack) (value : Bool) : Stack := value :: stack

/-- The top value and the stack below it. -/
def pop : Stack → Except DepthViolation (Bool × Stack)
  | [] => .error ⟨.atLeast 1, 0⟩
  | value :: rest => .ok (value, rest)

def check (stack : Stack) (rule : DepthRule) : Except DepthViolation Unit :=
  if rule.admits stack.depth then .ok () else .error ⟨rule, stack.depth⟩

end Stack

end RelayLadder
