/-!
The commands and their options.
-/

namespace RelayLadder

inductive Verb where
  | run
  | table
  deriving DecidableEq

def Verb.name : Verb → String
  | .run => "run"
  | .table => "table"

def Verb.ofName? (name : String) : Option Verb :=
  [Verb.run, Verb.table].find? fun verb => verb.name == name

/-- The options of the commands. -/
inductive Key where
  | help
  | demo
  | bankSize
  | strictBounds
  | toggle
  | stepLimit
  | scans
  | intervalMs
  | input
  | stimulus
  | stimulusRate
  | seed
  | inputs
  | outputs
  deriving DecidableEq

def Key.name : Key → String
  | .help => "help"
  | .demo => "demo"
  | .bankSize => "bank-size"
  | .strictBounds => "strict-bounds"
  | .toggle => "toggle"
  | .stepLimit => "step-limit"
  | .scans => "scans"
  | .intervalMs => "interval-ms"
  | .input => "input"
  | .stimulus => "stimulus"
  | .stimulusRate => "stimulus-rate"
  | .seed => "seed"
  | .inputs => "inputs"
  | .outputs => "outputs"

def Key.takesValue : Key → Bool
  | .help | .strictBounds => false
  | _ => true

/-- The options that a command knows. -/
def Verb.keys : Verb → List Key
  | .run =>
    [.help, .demo, .bankSize, .strictBounds, .toggle, .stepLimit, .scans, .intervalMs, .input,
     .stimulus, .stimulusRate, .seed]
  | .table =>
    [.help, .demo, .bankSize, .strictBounds, .toggle, .stepLimit, .inputs, .outputs, .scans]

def Verb.key? (verb : Verb) (name : String) : Option Key :=
  verb.keys.find? fun key => key.name == name

end RelayLadder
