import RelayLadder.Command.Plan
import RelayLadder.File.Error
import RelayLadder.Source.Program

/-!
Loading the program of a command, and why a command fails once it has been read.
-/

namespace RelayLadder

/-- Why a command fails once it has been read. -/
inductive CommandError where
  | file (error : FileError)
  | source (error : SourceError)
  | failure (failure : Failure)
  deriving DecidableEq

namespace CommandError

def message : CommandError → String
  | file error => error.message
  | source error => error.message
  | failure cause => cause.message

def inspect : CommandError → String
  | file error => error.inspect
  | source error => error.inspect
  | failure cause => cause.inspect

/-- The text for the error stream. -/
def report (error : CommandError) : String := "Error: " ++ error.inspect ++ "\n"

end CommandError

/-- The program in the bytes of a file. -/
def Program.ofBytes (bytes : ByteArray) : Except CommandError Program :=
  match String.fromUTF8? bytes with
  | some source => (Source.parse source).mapError .source
  | none => .error (.file .undecodable)

/-- The program from its origin, given a way to read files. -/
def Origin.load {m : Type → Type} [Monad m] (read : String → m (Except FileError ByteArray)) :
    Origin → m (Except CommandError Program)
  | demo chosen => pure (chosen.program.mapError .source)
  | file path => do
    match ← read path with
    | .ok bytes => pure (Program.ofBytes bytes)
    | .error error => pure (.error (.file error))

end RelayLadder
