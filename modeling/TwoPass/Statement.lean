import TwoPass.Mnemonic
import TwoPass.Text.Blank

/-!
# Statements

A statement has an operation and may have a label, an operand and the mark of an indirect address.
Statements with the same content are equal; where one came from is kept beside its content.
-/

namespace TwoPass

structure Statement where
  label : Option String
  op : Operation
  operand : Option String
  indirect : Bool := false
  deriving DecidableEq, Repr

/-- The statement as a line: its parts in order, one blank apart. -/
def Statement.text (s : Statement) : String :=
  Text.trim (" ".intercalate ([s.label.getD "", s.op.mnemonic] ++ s.operand.toList ++
    if s.indirect then [indirectMark] else []))

/-- A statement and where it came from. -/
structure SourceStatement extends Statement where
  origin : Origin := {}
  deriving DecidableEq, Repr

/-- Why a statement cannot be built from its parts. -/
inductive StatementError where
  | unknownMnemonic (d : Diagnostic)
  | unknownClass (e : OperationClass.Unknown)
  /-- The operation is of another class than the one given. -/
  | classMismatch (op : Operation) (given : OperationClass)
  deriving DecidableEq, Repr

def StatementError.message : StatementError → String
  | .unknownMnemonic d => d.message
  | .unknownClass e => e.message
  | .classMismatch op given =>
    op.mnemonic ++ " is a " ++ op.toClass.name ++ " instruction, not " ++ given.name

/-- A statement from its parts, with the class of its operation named beside the mnemonic. -/
def SourceStatement.ofParts (label : Option String) (mnemonic : String) (operand : Option String)
    (className : String) (indirect : Bool) (origin : Origin) :
    Except StatementError SourceStatement :=
  match OperationClass.ofName className with
  | .error e => .error (.unknownClass e)
  | .ok given =>
    match Operation.read mnemonic with
    | .error d => .error (.unknownMnemonic d)
    | .ok op =>
      if op.toClass = given then .ok { label, op, operand, indirect, origin }
      else .error (.classMismatch op given)

end TwoPass
