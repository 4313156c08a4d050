import RelayLadder.File.Error

/-!
A tree of files, and reading the file at a path. A path is followed part by part;
the first part that cannot be followed decides the error.
-/

namespace RelayLadder

/-- A file with its bytes, or a directory with its entries by name. -/
inductive FileTree where
  | file (bytes : ByteArray)
  | directory (entries : List (String × FileTree))

/-- The longest name of an entry, in bytes. -/
def maxNameBytes : Nat := 255

/-- The longest path, in bytes. -/
def maxPathBytes : Nat := 4095

/-- Rejects a path that cannot be looked up, whatever the tree. -/
def checkPath (path : String) : Except FileError Unit :=
  if '\x00' ∈ path.toList then .error .zeroInPath
  else if path.isEmpty then .error (.system .notFound)
  else if maxPathBytes < path.utf8ByteSize then .error (.system .nameTooLong)
  else .ok ()

/-- The parts of a path between its slashes. -/
def pathParts (path : String) : List String :=
  (path.toList.splitOn '/').map String.ofList

/-- A node of a tree with the directories above it, the nearest first. -/
structure Place where
  node : FileTree
  above : List FileTree

namespace Place

/-- The place of the whole tree. -/
def root (place : Place) : Place := ⟨place.above.getLast?.getD place.node, []⟩

/-- The directory above; above the root stands the root itself. -/
def parent (place : Place) : Place :=
  match place.above with
  | [] => place
  | node :: above => ⟨node, above⟩

/-- Follows one part of a path, which only a directory allows. An empty part and a
dot stay in the directory, two dots leave it. -/
def follow (place : Place) (part : String) : Except SystemError Place :=
  match place.node with
  | .file _ => .error .notADirectory
  | .directory entries =>
    if part = "" ∨ part = "." then .ok place
    else if part = ".." then .ok place.parent
    else if maxNameBytes < part.utf8ByteSize then .error .nameTooLong
    else
      match entries.lookup part with
      | some node => .ok ⟨node, place.node :: place.above⟩
      | none => .error .notFound

def followAll : List String → Place → Except SystemError Place
  | [], place => .ok place
  | part :: parts, place => do followAll parts (← place.follow part)

/-- The bytes at a path. A path that starts with a slash starts at the root, any
other at this place. -/
def read (place : Place) (path : String) : Except FileError ByteArray := do
  checkPath path
  let start := if path.toList.head? = some '/' then place.root else place
  match start.followAll (pathParts path) with
  | .error error => throw (.system error)
  | .ok found =>
    match found.node with
    | .file bytes => pure bytes
    | .directory _ => throw (.system .isADirectory)

end Place

end RelayLadder
