import RelayLadder.Command.Event
import RelayLadder.Command.Plan
import RelayLadder.Command.Value

/-!
Reading command lines. The events of a line fill a draft one by one, and the
first that does not fit is the answer; what excludes or misses what is decided
once the draft is complete.
-/

namespace RelayLadder

/-- The arguments read so far. -/
structure Draft where
  path : Option String := none
  demo : Option Demo := none
  bankSize : Option Nat := none
  strictBounds : Bool := false
  toggle : Option TogglePolicy := none
  stepLimit : Option Nat := none
  scans : Option Nat := none
  intervalMs : Option Nat := none
  assignments : List (Nat × Bool) := []
  stimulus : List Nat := []
  rate : Option Rate := none
  seed : Option Nat := none
  inputs : List Nat := []
  outputs : List Nat := []

def TogglePolicy.name : TogglePolicy → String
  | .perInstruction => "per-instruction"
  | .perScan => "per-scan"

def TogglePolicy.ofName? (name : String) : Option TogglePolicy :=
  [TogglePolicy.perInstruction, TogglePolicy.perScan].find? fun policy => policy.name == name

namespace Draft

/-- Fills a slot that takes one value. A second value is refused unread. -/
def once {α : Type} (slot : Option α) (value : Except Refusal α) : Except Refusal (Option α) :=
  match slot with
  | some _ => .error .conflict
  | none => value.map some

/-- A value from a list of names. -/
def choice {α : Type} (ofName? : String → Option α) (text : String) : Except Refusal α :=
  match ofName? text with
  | some value => .ok value
  | none => .error .invalidValue

def number (text : String) : Except Refusal Nat :=
  (Numeral.read .decimal wordLimit text.toList).mapError fun error => .rejected error.message

def address (text : List Char) : Except Refusal Nat :=
  (readAddress text).mapError fun error => .rejected error.message

/-- Addresses between commas. -/
def addresses (text : String) : Except Refusal (List Nat) :=
  (text.toList.splitOn ',').mapM address

def assignment (text : String) : Except Refusal (Nat × Bool) :=
  (readAssignment text.toList).mapError fun error => .rejected error.message

def rateValue (text : String) : Except Refusal Rate :=
  (Rate.read text.toList).mapError fun error => .rejected error.message

/-- Takes the value of an option. Lists grow over repetitions; every other option
may be given once. -/
def store (draft : Draft) (key : Key) (text : String) : Except Refusal Draft :=
  match key with
  | .help | .strictBounds => .error .unexpectedValue
  | .demo => (once draft.demo (choice Demo.ofName? text)).map fun demo => { draft with demo }
  | .bankSize => (once draft.bankSize (number text)).map fun bankSize => { draft with bankSize }
  | .toggle =>
    (once draft.toggle (choice TogglePolicy.ofName? text)).map fun toggle => { draft with toggle }
  | .stepLimit =>
    (once draft.stepLimit (number text)).map fun stepLimit => { draft with stepLimit }
  | .scans => (once draft.scans (number text)).map fun scans => { draft with scans }
  | .intervalMs =>
    (once draft.intervalMs (number text)).map fun intervalMs => { draft with intervalMs }
  | .input =>
    (assignment text).map fun pair => { draft with assignments := draft.assignments ++ [pair] }
  | .stimulus =>
    (addresses text).map fun added => { draft with stimulus := draft.stimulus ++ added }
  | .stimulusRate => (once draft.rate (rateValue text)).map fun rate => { draft with rate }
  | .seed => (once draft.seed (number text)).map fun seed => { draft with seed }
  | .inputs => (addresses text).map fun added => { draft with inputs := draft.inputs ++ added }
  | .outputs => (addresses text).map fun added => { draft with outputs := draft.outputs ++ added }

/-- Takes one event. -/
def accept (draft : Draft) : Event → Except Refusal Draft
  | .operand text =>
    if text = "" then .error .invalidValue
    else (once draft.path (.ok text)).map fun path => { draft with path }
  | .flag .help => .error .help
  | .flag .strictBounds =>
    if draft.strictBounds then .error .conflict else .ok { draft with strictBounds := true }
  | .flag _ | .option _ none => .error .invalidValue
  | .option key (some text) => draft.store key text
  | .refused refusal => .error refusal

/-- The one program that the arguments name. -/
def origin (draft : Draft) : Except Refusal Origin :=
  match draft.path, draft.demo with
  | some _, some _ => .error .conflict
  | some path, none => .ok (.file path)
  | none, some demo => .ok (.demo demo)
  | none, none => .error .missingArgument

def config (draft : Draft) : Config where
  bankSize := draft.bankSize.getD Memory.defaultSize
  bounds := if draft.strictBounds then .strict else .inclusive
  toggle := draft.toggle.getD .perInstruction
  stepLimit := draft.stepLimit

def defaultIntervalMs : Nat := 1000

/-- One flip in ten. -/
def defaultRate : Rate := .ofDecimal false 1 (-1)

/-- The command of a complete draft. -/
def finish (draft : Draft) : Verb → Except Refusal Command
  | .run => draft.origin.map fun origin => .run
      { origin
        config := draft.config
        scans := draft.scans
        intervalMs := draft.intervalMs.getD defaultIntervalMs
        inputs := draft.assignments
        stimulus := draft.stimulus
        rate := draft.rate.getD defaultRate
        seed := draft.seed.getD 0 }
  | .table => do
    let origin ← draft.origin
    if draft.inputs = [] ∨ draft.outputs = [] then throw .missingArgument
    pure <| .table
      { origin
        config := draft.config
        inputs := draft.inputs
        outputs := draft.outputs
        scans := draft.scans.getD 1 }

end Draft

/-- The command that the words after a verb describe. -/
def Verb.read (verb : Verb) (words : List String) : Except Refusal Command := do
  let draft ← (Event.read verb none false words).foldlM Draft.accept {}
  draft.finish verb

namespace Command

def helpWord : String := "help"

/-- Whether a word names a command. -/
def isName (word : String) : Bool := (Verb.ofName? word).isSome || word == helpWord

/-- The answer to a request for help on a command; nothing is nested below one. -/
def help : List String → Refusal
  | [] => .help
  | [word] => if isName word then .help else .unknownCommand
  | _ => .unknownCommand

/-- The refusal of a line that begins with no command. -/
def refuse : Word → List String → Refusal
  | .separator, [] => .missingCommand
  | .separator, word :: _ => if isName word then .unknownArgument else .unknownCommand
  | .long name attached, _ =>
    if name = Key.help.name then
      if attached.isSome then .unexpectedValue else .help
    else .unknownArgument
  | .short letters, _ =>
    if letters.head? = some Event.helpLetter then .help else .unknownArgument
  | .plain _, _ => .unknownCommand

/-- Reads a command line. -/
def read : List String → Except Refusal Command
  | [] => .error .missingCommand
  | word :: rest =>
    match Verb.ofName? word with
    | some verb => verb.read rest
    | none =>
      if word = helpWord then .error (help rest) else .error (refuse (Word.ofString word) rest)

end Command

end RelayLadder
