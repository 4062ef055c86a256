import TwoPass.Source.Line
import TwoPass.Statement

/-!
# Reading statements

A line holds one statement of one of these shapes, where `OP` is a mnemonic and `MEM` that of a
memory reference:

    OP      OP OPERAND      LABEL OP OPERAND      MEM OPERAND I      LABEL MEM OPERAND I

A line can be a text, or fields that were split before.
-/

namespace TwoPass

/-- A field of a line that was split before: a word alone, or a token with its own place. -/
inductive Field where
  | word (text : String)
  | token (t : Token)
  deriving DecidableEq, Repr

namespace Field

def content : Field → String
  | .word text => text
  | .token t => t.text

/-- The token of a field. A word that was split before has no column. -/
def toToken (number : Option Int) (file : Option String) : Field → Token
  | .word text => ⟨text, number, 0, file⟩
  | .token t => t

end Field

/-- A line to be read. -/
inductive RawLine where
  | text (line : String)
  | fields (fs : List Field)
  deriving DecidableEq, Repr

namespace RawLine

/-- The tokens of a line. -/
def tokens (number : Option Int) (file : Option String) : RawLine → List Token
  | .text line => Token.scan line number file
  | .fields fs => fs.map (Field.toToken number file)

/-- The line as messages quote it. -/
def shown : RawLine → String
  | .text line => line
  | .fields fs => " ".intercalate (fs.map Field.content)

end RawLine

/-- The tokens of a line by the part they play in its statement. -/
structure Shape where
  label : Option Token
  op : Token
  operand : Option Token
  indirect : Bool
  deriving DecidableEq, Repr

/-- The shape of a line, if it has one. -/
def Shape.ofTokens? : List Token → Option Shape
  | [op] => some ⟨none, op, none, false⟩
  | [op, operand] => some ⟨none, op, some operand, false⟩
  | [a, b, c] =>
    if (MemoryOp.ofMnemonic? a.text).isSome && c.text == indirectMark then
      some ⟨none, a, some b, true⟩
    else
      some ⟨some a, b, some c, false⟩
  | [a, b, c, d] =>
    if (MemoryOp.ofMnemonic? b.text).isSome && d.text == indirectMark then
      some ⟨some a, b, some c, true⟩
    else
      none
  | _ => none

/-- The place of a line's first token, or column zero of an empty line. -/
def startOf (tokens : List Token) (number : Option Int) (file : Option String) : Location :=
  match tokens with
  | t :: _ => t.location
  | [] => ⟨file, number, 0⟩

namespace SourceStatement

/-- The statement of a line's tokens. Messages quote the line as `source`. -/
def ofTokens (tokens : List Token) (number : Option Int) (file : Option String)
    (source : String) : Except Diagnostic SourceStatement :=
  let start : Origin := ⟨some (startOf tokens number file), some source⟩
  match Shape.ofTokens? tokens with
  | none => .error ⟨.fieldCount tokens.length, start⟩
  | some shape =>
    match Operation.read shape.op.text ⟨some shape.op.location, some source⟩ with
    | .error d => .error d
    | .ok op =>
      .ok { label := shape.label.map (·.text), op, operand := shape.operand.map (·.text),
            indirect := shape.indirect, origin := start }

/-- The statement of a line, quoted as `source` if that is given. -/
def ofLine (line : RawLine) (number : Option Int) (file : Option String)
    (source : Option String) : Except Diagnostic SourceStatement :=
  ofTokens (line.tokens number file) number file (source.getD line.shown)

/-- The statements of lines, each of which must hold one. They are numbered from one. -/
def ofLines (lines : List RawLine) (file : Option String) :
    Except Diagnostic (List SourceStatement) :=
  (lines.zipIdx 1).mapM fun (line, number) => ofLine line (some number) file none

/-- The statements of a source text. -/
def ofSource (source : String) (file : Option String) (commentChars : String) :
    Except Diagnostic (List SourceStatement) :=
  (CodeLine.scan source file commentChars).mapM fun line =>
    ofTokens line.tokens (some line.number) file line.text

end SourceStatement

end TwoPass
