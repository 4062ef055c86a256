import TwoPass.Source.Token
import TwoPass.Text.Lines

/-!
# Source lines

A source text is read line by line. A comment starts at the first comment character of its line and
runs to the line's end; lines that hold nothing else are skipped, but still counted.
-/

namespace TwoPass

/-- A line that holds tokens: its number, its text with any comment, and its tokens. -/
structure CodeLine where
  number : Nat
  text : String
  tokens : List Token
  deriving DecidableEq, Repr

namespace CodeLine

/-- The part of a line before its comment. -/
def withoutComment (commentChars line : String) : String :=
  String.ofList (line.toList.takeWhile fun c => !commentChars.toList.contains c)

/-- A line of a text, if it holds tokens. -/
def ofText? (file : Option String) (commentChars : String) (number : Nat) (text : String) :
    Option CodeLine :=
  match Token.scan (withoutComment commentChars text) (some number) file with
  | [] => none
  | tokens => some ⟨number, text, tokens⟩

/-- The lines of a source text that hold tokens. -/
def scan (source : String) (file : Option String) (commentChars : String) : List CodeLine :=
  ((Text.lines source).zipIdx 1).filterMap fun (text, number) =>
    ofText? file commentChars number text

end CodeLine

end TwoPass
