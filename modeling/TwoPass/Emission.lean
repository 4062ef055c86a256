import TwoPass.Encoding
import TwoPass.Layout

/-!
# Emission

The second pass stores the words. It counts addresses anew, in the same way as the first, and finds
labels in the table that the first pass completed.
-/

namespace TwoPass.Emission

/-- What the second pass did to a statement: the address it reached, the word it stored there, and
its warnings. -/
structure Event where
  address : Nat
  cell : Option Cell := none
  warnings : List Warning := []
  deriving DecidableEq, Repr

/-- Processes a statement at a location counter, and counts on. -/
def step (settings : Settings) (labels : LabelTable) (counter : Nat) (s : SourceStatement) :
    Except Fault (Event × Nat) :=
  if s.op = .org then
    match s.hexOperand with
    | .error d => .error (.diagnostic d)
    | .ok address => .ok ({ address }, address)
  else
    match checkCounter counter s with
    | .error d => .error (.diagnostic d)
    | .ok () =>
      if s.op = .fin then .ok ({ address := counter }, counter)
      else
        match s.encode settings labels with
        | .error f => .error f
        | .ok (word, warnings) => .ok (⟨counter, some ⟨counter, word, s⟩, warnings⟩, counter + 1)

def run (settings : Settings) (labels : LabelTable) (statements : List SourceStatement) :
    Pass Nat Event Fault :=
  Pass.run (step settings labels) 0 statements

end TwoPass.Emission

namespace TwoPass.Assembly

/-- The second pass: stores the words. The labels must be complete. -/
def emit (settings : Settings) (a : Assembly) : Except Fault Assembly :=
  if a.labels.isClosed then
    let pass := Emission.run settings a.labels a.statements
    match pass.stop with
    | some f => .error f
    | none =>
      .ok { a with
        cells := pass.events.filterMap (·.cell)
        emissionTrace := pass.events.map (·.address)
        warnings := a.warnings ++ pass.events.flatMap (·.warnings) }
  else .error (.diagnostic { problem := .tableOpen })

/-- Both passes over a program. -/
def assemble (settings : Settings) (statements : List SourceStatement) : Except Fault Assembly :=
  match (ofStatements statements).layOut settings with
  | .error d => .error (.diagnostic d)
  | .ok a => a.emit settings

end TwoPass.Assembly
