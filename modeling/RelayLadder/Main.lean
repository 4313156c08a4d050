import RelayLadder.Command.Draft
import RelayLadder.Command.Loading
import RelayLadder.Command.Session
import RelayLadder.File.Tree

/-!
The command-line program: reading files, printing, and waiting between rounds.
-/

namespace RelayLadder

/-- The reason behind an error of the operating system. Numbers may come negated,
as 32-bit words. -/
def fileErrorOf (error : IO.Error) : FileError :=
  let code? : Option UInt32 :=
    match error with
    | .noFileOrDirectory _ code _ | .inappropriateType _ code _ => some code
    | .permissionDenied _ code _ | .invalidArgument _ code _ => some code
    | _ => none
  let known? := code?.bind fun code =>
    SystemError.ofCode? code.toNat <|> SystemError.ofCode? (0 - code).toNat
  known?.elim (.other (toString error)) .system

/-- The bytes of the file at a path. -/
def readBytes (path : String) : IO (Except FileError ByteArray) := do
  match checkPath path with
  | .error error => pure (.error error)
  | .ok _ =>
    try
      pure (.ok (← IO.FS.readBinFile path))
    catch error => pure (.error (fileErrorOf error))

/-- Reports an error and gives the exit code. -/
def failWith (error : CommandError) : IO UInt32 := do
  (← IO.getStderr).putStr error.report
  pure (if error = .failure .unallocatable then 101 else 1)

/-- Plays rounds until the given number is reached or one fails. -/
partial def playRounds (remaining : Option Nat) (intervalMs : Nat) (session : Session) :
    IO UInt32 := do
  if remaining = some 0 then return 0
  match session.round with
  | .error failure => failWith (.failure failure)
  | .ok next =>
    let stdout ← IO.getStdout
    stdout.putStr next.block
    stdout.flush
    let remaining := remaining.map (· - 1)
    if remaining ≠ some 0 then IO.sleep (UInt32.ofNat (min intervalMs 0xFFFFFFFF))
    playRounds remaining intervalMs next

def Command.execute : Command → IO UInt32
  | .run plan => do
    match ← plan.origin.load readBytes with
    | .error error => failWith error
    | .ok program =>
      match Session.ofPlan plan program with
      | .error failure => failWith (.failure failure)
      | .ok session => playRounds plan.scans plan.intervalMs session
  | .table plan => do
    match ← plan.origin.load readBytes with
    | .error error => failWith error
    | .ok program =>
      match plan.text program with
      | .error failure => failWith (.failure failure)
      | .ok text => IO.print text; pure 0

/-- A short notice in place of a refused command. -/
def Refusal.notice : Refusal → String
  | .help | .missingCommand => "Usage: relayladder <run|table|help> [OPTIONS] [FILE]\n"
  | .unknownCommand => "error: unrecognized subcommand\n"
  | .unknownArgument => "error: unexpected argument\n"
  | .missingArgument => "error: a required argument is missing\n"
  | .invalidValue => "error: invalid value\n"
  | .conflict => "error: conflicting arguments\n"
  | .unexpectedValue => "error: unexpected value\n"
  | .rejected cause => "error: invalid value: " ++ cause ++ "\n"

/-- Reads the words of a command line and carries the command out. -/
def runCommandLine (words : List String) : IO UInt32 := do
  match Command.read words with
  | .ok command => command.execute
  | .error refusal =>
    let stream ← if refusal = .help then IO.getStdout else IO.getStderr
    stream.putStr refusal.notice
    pure (UInt32.ofNat refusal.exitCode)

end RelayLadder

def main (words : List String) : IO UInt32 :=
  RelayLadder.runCommandLine words
