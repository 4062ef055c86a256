import TwoPass.Diagnostic

/-!
# Reading mnemonics

A mnemonic is read as an operation of the whole instruction set, or of one class of it. A text
that names none is an unknown mnemonic, wherever it stands.
-/

namespace TwoPass

/-- What was found, or the problem that a text is no mnemonic. -/
def orUnknown {α : Type} (text : String) (origin : Origin) (found : Option α) :
    Except Diagnostic α :=
  match found with
  | some op => .ok op
  | none => .error ⟨.unknownMnemonic text, origin⟩

def Operation.read (text : String) (origin : Origin := {}) : Except Diagnostic Operation :=
  orUnknown text origin (Operation.ofMnemonic? text)

def MemoryOp.read (text : String) (origin : Origin := {}) : Except Diagnostic MemoryOp :=
  orUnknown text origin (MemoryOp.ofMnemonic? text)

def RegisterOp.read (text : String) (origin : Origin := {}) : Except Diagnostic RegisterOp :=
  orUnknown text origin (RegisterOp.ofMnemonic? text)

def DeviceOp.read (text : String) (origin : Origin := {}) : Except Diagnostic DeviceOp :=
  orUnknown text origin (DeviceOp.ofMnemonic? text)

end TwoPass
