import RelayLadder.Inspect

/-!
Why a file cannot be read. Some reasons are the operating system's and carry its
number; the others are found before a file is opened or after it was read.
-/

namespace RelayLadder

/-- A reason the operating system gives. -/
inductive SystemError where
  | notFound
  | permissionDenied
  | notADirectory
  | isADirectory
  | nameTooLong
  deriving DecidableEq

namespace SystemError

def all : List SystemError :=
  [notFound, permissionDenied, notADirectory, isADirectory, nameTooLong]

def code : SystemError → Nat
  | notFound => 2
  | permissionDenied => 13
  | notADirectory => 20
  | isADirectory => 21
  | nameTooLong => 36

def identifier : SystemError → String
  | notFound => "NotFound"
  | permissionDenied => "PermissionDenied"
  | notADirectory => "NotADirectory"
  | isADirectory => "IsADirectory"
  | nameTooLong => "InvalidFilename"

def text : SystemError → String
  | notFound => "No such file or directory"
  | permissionDenied => "Permission denied"
  | notADirectory => "Not a directory"
  | isADirectory => "Is a directory"
  | nameTooLong => "File name too long"

def message (error : SystemError) : String :=
  error.text ++ " (os error " ++ decimal error.code ++ ")"

def inspect (error : SystemError) : String :=
  Inspect.record "Os"
    [("code", decimal error.code), ("kind", error.identifier),
     ("message", Inspect.quoted error.text)]

def ofCode? (code : Nat) : Option SystemError := all.find? (·.code = code)

end SystemError

/-- Why a file cannot be read as text. -/
inductive FileError where
  | system (error : SystemError)
  /-- The path holds a zero character, so that no file can have it. -/
  | zeroInPath
  /-- The bytes are not text. -/
  | undecodable
  | other (reason : String)
  deriving DecidableEq

namespace FileError

def message : FileError → String
  | system error => error.message
  | zeroInPath => "file name contained an unexpected NUL byte"
  | undecodable => "stream did not contain valid UTF-8"
  | other reason => reason

def inspect (error : FileError) : String :=
  let plain (kind : String) : String :=
    Inspect.record "Error" [("kind", kind), ("message", Inspect.quoted error.message)]
  match error with
  | system error => error.inspect
  | zeroInPath => plain "InvalidInput"
  | undecodable => plain "InvalidData"
  | other _ => plain "Other"

end FileError

end RelayLadder
