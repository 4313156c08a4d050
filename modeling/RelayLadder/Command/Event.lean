import RelayLadder.Command.Key
import RelayLadder.Command.Refusal

/-!
Command lines as events. Words are classified, options are paired with their
values, and words that fit nowhere are refused on the spot.
-/

namespace RelayLadder

/-- The form of a word, before its meaning is known. -/
inductive Word where
  /-- Two dashes alone: every later word is an operand. -/
  | separator
  | long (name : String) (attached : Option String)
  | short (letters : List Char)
  | plain (text : String)
  deriving DecidableEq

def Word.ofString (text : String) : Word :=
  match text.toList with
  | ['-', '-'] => .separator
  | '-' :: '-' :: rest =>
    let name := String.ofList (rest.takeWhile (· ≠ '='))
    match rest.dropWhile (· ≠ '=') with
    | [] => .long name none
    | _ :: value => .long name (some (String.ofList value))
  | '-' :: letter :: rest => .short (letter :: rest)
  | _ => .plain text

/-- What the words of a command say, in order. -/
inductive Event where
  | operand (text : String)
  | flag (key : Key)
  | option (key : Key) (value : Option String)
  | refused (refusal : Refusal)
  deriving DecidableEq

namespace Event

/-- The letter of the only short option. -/
def helpLetter : Char := 'h'

/-- Events of the words after the separator. `seen` tells whether the operand has
been given. -/
def afterSeparator (pending : Option Event) (seen : Bool) : List String → List Event
  | [] => pending.toList
  | word :: rest =>
    if seen then [.refused .unknownArgument]
    else pending.toList ++ afterSeparator (some (.operand word)) true rest

/-- Events of the words of a command. The argument read last is `pending` until
the next one begins; a word that fits nowhere is refused ahead of it. -/
def read (verb : Verb) (pending : Option Event) (seen : Bool) : List String → List Event
  | [] => pending.toList
  | word :: rest =>
    match Word.ofString word with
    | .separator => afterSeparator pending seen rest
    | .long name attached =>
      match verb.key? name, attached with
      | none, _ => [.refused .unknownArgument]
      | some key, none =>
        if key.takesValue then pending.toList ++ read verb (some (.option key none)) seen rest
        else pending.toList ++ .flag key :: read verb none seen rest
      | some key, some value =>
        if key.takesValue then
          pending.toList ++ .option key (some value) :: read verb none seen rest
        else [.refused .unexpectedValue]
    | .short letters =>
      if letters.head? = some helpLetter then
        pending.toList ++ .flag .help :: read verb none seen rest
      else [.refused .unknownArgument]
    | .plain text =>
      match pending with
      | some (.option key none) => read verb (some (.option key (some text))) seen rest
      | _ =>
        if seen then [.refused .unknownArgument]
        else pending.toList ++ read verb (some (.operand text)) true rest

end Event

end RelayLadder
