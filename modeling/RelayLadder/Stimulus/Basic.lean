import RelayLadder.Engine.Basic
import RelayLadder.Stimulus.Generator
import RelayLadder.Stimulus.Rate

/-!
Stimuli: cells of an engine flipped at random.
-/

namespace RelayLadder

/-- Addresses to disturb, how often, and where the draws come from. -/
structure Stimulus.From (Source : Type) where
  addresses : List Nat
  rate : Rate
  source : Source

/-- A stimulus that draws from the generator. -/
abbrev Stimulus := Stimulus.From Generator

/-- Complements a cell as the engine reads it, in both banks. -/
def Engine.flip (engine : Engine) (address : Nat) : Except Failure Engine := do
  let value ← engine.read address
  engine.setInput address (!value)

namespace Stimulus.From

variable {Source : Type} [DrawSource Source]

def ofSeed (addresses : List Nat) (rate : Rate) (seed : Nat) : From Source :=
  ⟨addresses, rate, DrawSource.ofSeed (UInt64.ofNat seed)⟩

/-- Draws once for each address and flips those drawn below the rate. A flip that
is out of bounds ends the pass; what was drawn and flipped before stays. -/
def disturb (rate : Rate) :
    List Nat → Source → Engine → Except Failure (List Nat) × Source × Engine
  | [], source, engine => (.ok [], source, engine)
  | address :: rest, source, engine =>
    let (draw, source) := DrawSource.draw source
    if rate.exceeds draw then
      match engine.flip address with
      | .ok engine =>
        let (result, source, engine) := disturb rate rest source engine
        (result.map (address :: ·), source, engine)
      | .error failure => (.error failure, source, engine)
    else disturb rate rest source engine

/-- One pass over the addresses, answering those that were flipped. -/
def apply (stimulus : From Source) (engine : Engine) :
    Except Failure (List Nat) × From Source × Engine :=
  if stimulus.rate.isSilent then (.ok [], stimulus, engine)
  else
    let (result, source, engine) :=
      disturb stimulus.rate stimulus.addresses stimulus.source engine
    (result, { stimulus with source }, engine)

end Stimulus.From

def Stimulus.ofSeed : List Nat → Rate → Nat → Stimulus := From.ofSeed

end RelayLadder
