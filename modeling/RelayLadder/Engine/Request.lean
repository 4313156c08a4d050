import RelayLadder.Engine.Basic

/-!
Requests to an engine as data, so that a history of calls is a list.
-/

namespace RelayLadder

inductive Request where
  | step
  | stepMany (count : Nat)
  | scan
  | scanWithin (limit : Nat)
  | read (address : Nat)
  | setInput (address : Nat) (value : Bool)
  | clearMemory
  | reset
  deriving DecidableEq

/-- What an engine answers when a request succeeds. -/
inductive Reply where
  | done
  | count (steps : Nat)
  | value (bit : Bool)
  deriving DecidableEq

namespace Engine

/-- Carries out one request. -/
def serve (engine : Engine) : Request → Except Failure Reply × Engine
  | .step =>
    let (result, next) := engine.step
    (result.map fun _ => .done, next)
  | .stepMany count =>
    let (result, next) := engine.stepMany count
    (result.map fun _ => .done, next)
  | .scan =>
    let (result, next) := engine.scan
    (result.map .count, next)
  | .scanWithin limit =>
    let (result, next) := engine.scanWithin limit
    (result.map .count, next)
  | .read address => ((engine.read address).map .value, engine)
  | .setInput address value =>
    match engine.setInput address value with
    | .ok next => (.ok .done, next)
    | .error failure => (.error failure, engine)
  | .clearMemory => (.ok .done, engine.clearMemory)
  | .reset => (.ok .done, engine.reset)

/-- The engine after a history of requests, failures included. -/
def serveAll (engine : Engine) (requests : List Request) : Engine :=
  requests.foldl (fun current request => (current.serve request).2) engine

end Engine

end RelayLadder
