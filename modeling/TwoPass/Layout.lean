import TwoPass.Assembly
import TwoPass.Literal
import TwoPass.Pass
import TwoPass.Settings

/-!
# Layout

The first pass gives each statement an address and binds the labels. An origin directive sets the
location counter, its own label included; every other statement takes the next address, and the end
of the program takes none.
-/

namespace TwoPass.Layout

/-- What the first pass did to a statement: the address it gave, the label it bound there, and its
warnings. -/
structure Event where
  address : Nat
  label : Option String
  warnings : List Warning
  deriving DecidableEq, Repr

structure State where
  counter : Nat := 0
  labels : LabelTable := .empty

/-- The address of a statement. -/
def place (counter : Nat) (s : SourceStatement) : Except Diagnostic Nat := do
  let address ← if s.op = .org then s.hexOperand else .ok counter
  checkCounter address s
  return address

/-- Binds the label of a statement, if it has one, and warns if that moves it. -/
def bindLabel (settings : Settings) (labels : LabelTable) (address : Nat) (s : SourceStatement) :
    Except Diagnostic (LabelTable × List Warning) :=
  match s.label with
  | none => .ok (labels, [])
  | some label =>
    match labels.define label address s.origin settings.allowRebinding with
    | .error d => .error d
    | .ok (labels, none) => .ok (labels, [])
    | .ok (labels, some before) =>
      .ok (labels, [⟨.rebound label before.value address, s.origin.location⟩])

/-- The location counter after a statement at an address. -/
def advance (address : Nat) (s : SourceStatement) : Nat :=
  if s.op = .org ∨ s.op = .fin then address else address + 1

def step (settings : Settings) (state : State) (s : SourceStatement) :
    Except Diagnostic (Event × State) := do
  let address ← place state.counter s
  let (labels, warnings) ← bindLabel settings state.labels address s
  return (⟨address, s.label, warnings⟩, ⟨advance address s, labels⟩)

def run (settings : Settings) (statements : List SourceStatement) : Pass State Event Diagnostic :=
  Pass.run (step settings) {} statements

end TwoPass.Layout

namespace TwoPass

/-- The first pass: gives every statement its address and completes the labels. -/
def Assembly.layOut (settings : Settings) (a : Assembly) : Except Diagnostic Assembly :=
  let pass := Layout.run settings a.statements
  match pass.stop with
  | some d => .error d
  | none =>
    .ok { a with
      labels := pass.state.labels.close
      layoutTrace := pass.events.map (·.address)
      warnings := a.warnings ++ pass.events.flatMap (·.warnings) }

end TwoPass
