import RelayLadder.Bench
import RelayLadder.Command.Plan
import RelayLadder.Memory.Dump
import RelayLadder.Stimulus.Basic
import RelayLadder.TruthTable.Text

/-!
Carrying commands out. A run is a session that goes from round to round, each
round printing one block; a table is one text.
-/

namespace RelayLadder

/-- A run in progress. -/
structure Session where
  engine : Engine
  stimulus : Option Stimulus

namespace Session

/-- The session of a plan before its first round. -/
def ofPlan (plan : RunPlan) (program : Program) : Except Failure Session := do
  let engine ← Engine.start? program plan.config
  let engine ← engine.force plan.inputs
  let stimulus :=
    if plan.stimulus = [] then none else some (.ofSeed plan.stimulus plan.rate plan.seed)
  pure { engine, stimulus }

/-- Applies the stimulus, if there is one. -/
def disturb (session : Session) : Except Failure Session :=
  match session.stimulus with
  | none => .ok session
  | some stimulus =>
    match stimulus.apply session.engine with
    | (.ok _, stimulus, engine) => .ok { engine, stimulus := some stimulus }
    | (.error failure, _, _) => .error failure

/-- Completes a scan. -/
def scan (session : Session) : Except Failure Session :=
  match session.engine.scan with
  | (.ok _, engine) => .ok { session with engine }
  | (.error failure, _) => .error failure

/-- The line between blocks. -/
def rule : String := String.ofList (List.replicate 30 '-')

/-- What is printed after a round. -/
def block (session : Session) : String := session.engine.memory.dump ++ rule ++ "\n"

/-- One round: stimulus, then scan. -/
def round (session : Session) : Except Failure Session := do
  let disturbed ← session.disturb
  disturbed.scan

/-- The blocks of a number of rounds, and the failure that cut them short. -/
def play : Nat → Session → List String × Option Failure
  | 0, _ => ([], none)
  | rounds + 1, session =>
    match session.round with
    | .ok next =>
      let (blocks, failure) := play rounds next
      (next.block :: blocks, failure)
    | .error failure => ([], some failure)

end Session

/-- The output of a run that is limited to a number of rounds. -/
def RunPlan.transcript (plan : RunPlan) (program : Program) (rounds : Nat) :
    String × Option Failure :=
  match Session.ofPlan plan program with
  | .ok session =>
    let (blocks, failure) := session.play rounds
    (String.join blocks, failure)
  | .error failure => ("", some failure)

/-- The printed table of a plan. -/
def TablePlan.text (plan : TablePlan) (program : Program) : Except Failure String :=
  let bench : Bench :=
    { program, config := plan.config, scans := plan.scans, outputs := plan.outputs }
  (bench.truthTable plan.inputs).map (TruthTable.text plan.inputs plan.outputs)

end RelayLadder
