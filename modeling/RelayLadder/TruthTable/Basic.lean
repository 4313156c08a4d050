import RelayLadder.Bench

/-!
Truth tables: a bench run on every assignment of some inputs.
-/

namespace RelayLadder

/-- One line of a truth table. -/
structure Row where
  inputs : List Bool
  outputs : List Bool
  deriving DecidableEq

/-- All assignments of a width in counting order, the first value most significant. -/
def assignments : Nat → List (List Bool)
  | 0 => [[]]
  | width + 1 =>
    let tails := assignments width
    tails.map (false :: ·) ++ tails.map (true :: ·)

namespace Bench

/-- The most inputs that a truth table may have. -/
def widestTable : Nat := 20

/-- The row of one assignment. -/
def row (bench : Bench) (inputs : List Nat) (values : List Bool) : Except Failure Row := do
  let outputs ← bench.run (inputs.zip values)
  pure ⟨values, outputs⟩

/-- The rows of all assignments, or the failure of the first that fails. -/
def truthTable (bench : Bench) (inputs : List Nat) : Except Failure (List Row) :=
  if widestTable < inputs.length then .error (.tableTooWide inputs.length widestTable)
  else (assignments inputs.length).mapM (bench.row inputs)

end Bench

end RelayLadder
