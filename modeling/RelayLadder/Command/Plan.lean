import RelayLadder.Engine.Basic
import RelayLadder.Program.Demo
import RelayLadder.Stimulus.Rate

/-!
Commands ready to be carried out.
-/

namespace RelayLadder

/-- Where a program comes from. -/
inductive Origin where
  | file (path : String)
  | demo (demo : Demo)
  deriving DecidableEq

/-- Run a program and print its memory after every scan. -/
structure RunPlan where
  origin : Origin
  config : Config
  /-- How many scans to run; without a number the run goes on until it fails. -/
  scans : Option Nat
  intervalMs : Nat
  inputs : List (Nat × Bool)
  stimulus : List Nat
  rate : Rate
  seed : Nat

/-- Print the truth table of a program. -/
structure TablePlan where
  origin : Origin
  config : Config
  inputs : List Nat
  outputs : List Nat
  scans : Nat

inductive Command where
  | run (plan : RunPlan)
  | table (plan : TablePlan)

end RelayLadder
