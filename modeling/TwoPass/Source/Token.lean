import TwoPass.Source.Location
import TwoPass.Text.Blank
import TwoPass.Text.Quoted

/-!
# Tokens

The words of a line are its maximal runs of characters that are not blank. A token is such a word
with the place where it starts; columns count characters.
-/

namespace TwoPass

/-- A word of source text and where it starts. -/
structure Token where
  text : String
  line : Option Int
  column : Int
  file : Option String
  deriving DecidableEq, Repr

namespace Token

def location (t : Token) : Location :=
  ⟨t.file, t.line, t.column⟩

/-- A token as it is shown to a person: its quoted text, its line and its column. -/
def shown (t : Token) : String :=
  "Token(" ++ Text.quoted t.text ++ ", " ++ lineText t.line ++ ":" ++
    Numeral.decimal t.column ++ ")"

/-- The words of a line with their columns. The next character is in column `column`, and `word`
holds the characters read of the current word, last first. -/
def wordsFrom (column : Nat) (word : List Char) : List Char → List (Nat × List Char)
  | [] => if word.isEmpty then [] else [(column - word.length, word.reverse)]
  | c :: rest =>
    if Text.isBlank c then
      if word.isEmpty then wordsFrom (column + 1) [] rest
      else (column - word.length, word.reverse) :: wordsFrom (column + 1) [] rest
    else wordsFrom (column + 1) (c :: word) rest

/-- The tokens of a line. -/
def scan (line : String) (number : Option Int) (file : Option String) : List Token :=
  (wordsFrom 1 [] line.toList).map fun (column, word) => ⟨String.ofList word, number, column, file⟩

end Token

end TwoPass
