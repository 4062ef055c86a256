import TwoPass.Machine.Operation
import TwoPass.Source.Location
import TwoPass.Text.UpperCase

/-!
# Diagnostics

What can be wrong with a program, as a cause and the place where it was found. The wording of every
cause is in `Problem.summary` and `Problem.hint`; `Diagnostic.message` adds the place, the source
line with a mark under the column, and the hint.
-/

namespace TwoPass

/-- Why a literal cannot be encoded. -/
inductive LiteralFlaw where
  | notHexadecimal
  | aboveWord
  | notDecimal
  | outsideRange
  | other (reason : String)
  deriving DecidableEq, Repr

def LiteralFlaw.message : LiteralFlaw → String
  | .notHexadecimal => "not a hexadecimal number"
  | .aboveWord => "value exceeds " ++ Numeral.address wordMax
  | .notDecimal => "not a decimal number"
  | .outsideRange =>
    "value outside " ++ Numeral.decimal signedMin ++ ".." ++ Numeral.decimal wordMax
  | .other reason => reason

/-- The causes that stop an assembly. `custom` and `malformed` are worded by the caller. -/
inductive Problem where
  /-- A statement would stand beyond the last address. -/
  | counterOverflow (address : Nat)
  /-- A label is defined after the table was closed. -/
  | tableClosed (label : String)
  /-- Words are asked for while the table is open. -/
  | tableOpen
  /-- A result is asked for before there is one. -/
  | noResult
  /-- A statement that stores nothing is asked for its word. -/
  | emitsNothing (op : Operation)
  | custom (text : String) (hint : Option String)
  /-- A line has a number of fields that no statement has. -/
  | fieldCount (found : Nat)
  /-- A literal is missing. -/
  | operandMissing (op : Operation)
  /-- The label of a memory reference is missing. -/
  | addressMissing (op : Operation)
  | malformed (text : String) (hint : Option String)
  | unknownMnemonic (text : String)
  | badLiteral (directive literal : String) (flaw : LiteralFlaw)
  | undefinedLabel (label : String) (similar : List String) (hint : Option String)
  /-- A label is defined again; `first` is where it was defined before. -/
  | duplicateLabel (label : String) (first : Option Location)
  deriving DecidableEq, Repr

namespace Problem

/-- The kinds of problem that a caller can tell apart. -/
inductive Kind where
  | general | malformed | unknownMnemonic | badLiteral | undefinedLabel | duplicateLabel
  deriving DecidableEq, Repr

def kind : Problem → Kind
  | .counterOverflow _ | .tableClosed _ | .tableOpen | .noResult | .emitsNothing _
  | .custom _ _ => .general
  | .fieldCount _ | .operandMissing _ | .addressMissing _ | .malformed _ _ => .malformed
  | .unknownMnemonic _ => .unknownMnemonic
  | .badLiteral _ _ _ => .badLiteral
  | .undefinedLabel _ _ _ => .undefinedLabel
  | .duplicateLabel _ _ => .duplicateLabel

/-- The problem in one line. -/
def summary : Problem → String
  | .counterOverflow address =>
    "location counter overflow: $" ++ Numeral.hex 0 address ++ " exceeds " ++
      Numeral.address wordMax
  | .tableClosed label => "cannot define '" ++ label ++ "': symbol table is read-only after pass 1"
  | .tableOpen => "pass 2 requires a completed pass 1 symbol table"
  | .noResult => "no assembly result available"
  | .emitsNothing op => op.mnemonic ++ " does not emit a word"
  | .custom text _ => text
  | .fieldCount found =>
    "unexpected format: expected 1 to 3 fields, found " ++ Numeral.decimal found
  | .operandMissing op => op.mnemonic ++ " requires an operand"
  | .addressMissing op => op.mnemonic ++ " requires an address operand"
  | .malformed text _ => text
  | .unknownMnemonic text => "unknown opcode '" ++ text ++ "'"
  | .badLiteral directive literal flaw =>
    "invalid " ++ directive ++ " operand '" ++ literal ++ "': " ++ flaw.message
  | .undefinedLabel label _ _ => "undefined symbol '" ++ label ++ "'"
  | .duplicateLabel label _ => "duplicate symbol '" ++ label ++ "'"

/-- At most three similar labels are suggested. -/
def suggestion (similar : List String) : String :=
  "did you mean " ++ ", ".intercalate ((similar.take 3).map fun s => "'" ++ s ++ "'") ++ "?"

/-- Advice on how to mend the problem. -/
def hint : Problem → Option String
  | .custom _ hint => hint
  | .malformed _ hint => hint
  | .fieldCount _ =>
    some ("lines have the form [LABEL] OPCODE [OPERAND], " ++
      "with an optional trailing 'I' after memory-reference operands")
  | .unknownMnemonic text =>
    if Text.upper text = text then none
    else some ("mnemonics are case-sensitive; did you mean '" ++ Text.upper text ++ "'?")
  | .undefinedLabel _ similar hint =>
    if hint.getD "" = "" && !similar.isEmpty then some (suggestion similar) else hint
  | .duplicateLabel label (some first) =>
    some ("'" ++ label ++ "' was first defined at " ++ first.text)
  | _ => none

end Problem

/-- A problem and where it was found. -/
structure Diagnostic where
  problem : Problem
  origin : Origin := {}
  deriving DecidableEq, Repr

namespace Diagnostic

/-- The width of the margin before the mark under a column. -/
def margin (l : Location) : Nat :=
  (4 + l.column - 1).toNat

/-- The source line, indented, and a mark under the column if it has one. -/
def excerpt (o : Origin) : List String :=
  match o.location, o.source with
  | some l, some line =>
    let mark := String.ofList (List.replicate (margin l) ' ' ++ ['^'])
    ("    " ++ line) :: if 0 < l.column then [mark] else []
  | _, _ => []

/-- Why the message cannot be written out, if its mark is too far to the right for that, where there
is room for texts of `room` characters. -/
def overlong? (room : Nat) (d : Diagnostic) : Option Text.Overlong :=
  match d.origin.location, d.origin.source with
  | some l, some _ => if 0 < l.column then Text.overlong? room (margin l) else none
  | _, _ => none

def message (d : Diagnostic) : String :=
  let summary := "error: " ++ d.problem.summary
  let first :=
    match d.origin.location with
    | some l => l.text ++ ": " ++ summary
    | none => summary
  let advice :=
    match d.problem.hint with
    | some hint => if hint = "" then [] else ["hint: " ++ hint]
    | none => []
  "\n".intercalate (first :: excerpt d.origin ++ advice)

end Diagnostic

end TwoPass
