import RelayLadder.Program.Basic
import RelayLadder.Source.Line
import RelayLadder.Text.Blank

/-!
Whole source texts. Lines end at newline characters, are trimmed, and are
skipped when nothing is left; the first bad line rejects the text.
-/

namespace RelayLadder.Source

/-- The statements of consecutive lines, the first of them with the given number. -/
def statementsFrom (line : Nat) : List (List Char) → Except SourceError (List Statement)
  | [] => .ok []
  | raw :: rest =>
    let text := Text.trim raw
    if text = [] then statementsFrom (line + 1) rest
    else do
      let instruction ← parseLine line text
      let statements ← statementsFrom (line + 1) rest
      pure (⟨line, instruction⟩ :: statements)

def lines (source : String) : List (List Char) := source.toList.splitOn '\n'

def parse (source : String) : Except SourceError Program := do
  let statements ← statementsFrom 1 (lines source)
  match Program.ofStatements? statements with
  | some program => pure program
  | none => throw .emptyProgram

end RelayLadder.Source
