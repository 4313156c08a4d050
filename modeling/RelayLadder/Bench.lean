import RelayLadder.Engine.Basic

/-!
A test bench: one program run from blank memory on given inputs, for a number of
scans, with the outputs read at the end.
-/

namespace RelayLadder

/-- Cells to force before a run, in order. -/
abbrev Case := List (Nat × Bool)

structure Bench where
  program : Program
  config : Config
  scans : Nat := 1
  outputs : List Nat

namespace Engine

/-- Forces the cells of a case, up to the first that is out of bounds. -/
def force (engine : Engine) (case : Case) : Except Failure Engine :=
  case.foldlM (fun current (address, value) => current.setInput address value) engine

/-- Completes a number of scans, up to the first failure. -/
def scanMany : Nat → Engine → Except Failure Engine
  | 0, engine => .ok engine
  | count + 1, engine =>
    match engine.scan with
    | (.ok _, next) => scanMany count next
    | (.error failure, _) => .error failure

end Engine

namespace Bench

/-- The outputs of one case. -/
def run (bench : Bench) (case : Case) : Except Failure (List Bool) := do
  let engine ← Engine.start? bench.program bench.config
  let engine ← engine.force case
  let engine ← engine.scanMany bench.scans
  bench.outputs.mapM engine.read

/-- The outputs of several cases; no case affects another. -/
def runAll (bench : Bench) (cases : List Case) : List (Except Failure (List Bool)) :=
  cases.map bench.run

end Bench

end RelayLadder
