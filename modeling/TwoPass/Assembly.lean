import TwoPass.LabelTable
import TwoPass.Statement
import TwoPass.Warning

/-!
# Assemblies

An assembly is a program on its way from statements to words: the statements, the labels and the
addresses that the first pass gives them, and the words that the second pass stores.
-/

namespace TwoPass

/-- A word, the address where it is stored, and the statement it comes from. -/
structure Cell where
  address : Nat
  word : Word
  statement : SourceStatement
  deriving DecidableEq, Repr

structure Assembly where
  statements : List SourceStatement
  labels : LabelTable := .empty
  cells : List Cell := []
  /-- The address of each statement that the first pass reached. -/
  layoutTrace : List Nat := []
  /-- The address of each statement that the second pass reached. -/
  emissionTrace : List Nat := []
  warnings : List Warning := []
  deriving DecidableEq, Repr

namespace Assembly

/-- An assembly before its first pass. -/
def ofStatements (statements : List SourceStatement) : Assembly :=
  { statements }

/-- Whether two assemblies have the same statements, wherever these came from. -/
def sameStatements (a b : Assembly) : Bool :=
  a.statements.map (·.toStatement) == b.statements.map (·.toStatement)

/-- Whether two assemblies store the same words at the same addresses. -/
def sameCells (a b : Assembly) : Bool :=
  a.cells.map (fun c => (c.address, c.word)) == b.cells.map (fun c => (c.address, c.word))

/-- Whether two assemblies agree in all that a report of them shows. -/
def agrees (a b : Assembly) : Bool :=
  a.sameStatements b && a.labels.agrees b.labels && a.sameCells b &&
    a.layoutTrace == b.layoutTrace && a.emissionTrace == b.emissionTrace &&
    a.warnings.map (·.message) == b.warnings.map (·.message)

end Assembly

end TwoPass
