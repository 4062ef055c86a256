import TwoPass.Machine.Word

/-!
# Operations

The instruction set has three classes of instructions. A memory reference names one of seven codes
and an address; a register or a device operation is a fixed word. A fourth class directs the
assembler itself: it sets the address, ends the program, or stores a number.
-/

namespace TwoPass

/-- Instructions that refer to memory. -/
inductive MemoryOp where
  | and | add | lda | sta | bun | bsa | isz
  deriving DecidableEq, Repr

/-- Instructions on the accumulator, its carry, and the flow of control. -/
inductive RegisterOp where
  | cla | cle | cma | cme | cir | cil | inc | spa | sna | sza | sze | hlt
  deriving DecidableEq, Repr

/-- Instructions for input, output and interrupts. -/
inductive DeviceOp where
  | inp | out | ski | sko | ion | iof
  deriving DecidableEq, Repr

/-- Directions to the assembler: set the address, end the program, store a number. -/
inductive Directive where
  | origin | finish | decimal | hexadecimal
  deriving DecidableEq, Repr

inductive Operation where
  | memory (op : MemoryOp)
  | register (op : RegisterOp)
  | device (op : DeviceOp)
  | directive (d : Directive)
  deriving DecidableEq, Repr

/-- The bit that marks an indirect address, in the four bits before it. -/
def indirectBit : BitVec 4 := 8

namespace MemoryOp

def all : List MemoryOp :=
  [.and, .add, .lda, .sta, .bun, .bsa, .isz]

def mnemonic : MemoryOp → String
  | .and => "AND"
  | .add => "ADD"
  | .lda => "LDA"
  | .sta => "STA"
  | .bun => "BUN"
  | .bsa => "BSA"
  | .isz => "ISZ"

def ofMnemonic? (text : String) : Option MemoryOp :=
  all.find? (·.mnemonic == text)

def code : MemoryOp → BitVec 3
  | .and => 0
  | .add => 1
  | .lda => 2
  | .sta => 3
  | .bun => 4
  | .bsa => 5
  | .isz => 6

/-- The four bits before the address: the code, with the mark of an indirect address. -/
def field (op : MemoryOp) (indirect : Bool) : BitVec 4 :=
  if indirect then op.code.setWidth 4 ||| indirectBit else op.code.setWidth 4

/-- The four binary digits of the field. -/
def fieldDigits (op : MemoryOp) (indirect : Bool) : String :=
  Numeral.binary 4 (op.field indirect).toNat

/-- The word that refers to an address. -/
def word (op : MemoryOp) (indirect : Bool) (address : AddressField) : Word :=
  op.field indirect ++ address

end MemoryOp

namespace RegisterOp

def all : List RegisterOp :=
  [.cla, .cle, .cma, .cme, .cir, .cil, .inc, .spa, .sna, .sza, .sze, .hlt]

def mnemonic : RegisterOp → String
  | .cla => "CLA"
  | .cle => "CLE"
  | .cma => "CMA"
  | .cme => "CME"
  | .cir => "CIR"
  | .cil => "CIL"
  | .inc => "INC"
  | .spa => "SPA"
  | .sna => "SNA"
  | .sza => "SZA"
  | .sze => "SZE"
  | .hlt => "HLT"

def ofMnemonic? (text : String) : Option RegisterOp :=
  all.find? (·.mnemonic == text)

def word : RegisterOp → Word
  | .cla => 0x7800
  | .cle => 0x7400
  | .cma => 0x7200
  | .cme => 0x7100
  | .cir => 0x7080
  | .cil => 0x7040
  | .inc => 0x7020
  | .spa => 0x7010
  | .sna => 0x7008
  | .sza => 0x7004
  | .sze => 0x7002
  | .hlt => 0x7001

end RegisterOp

namespace DeviceOp

def all : List DeviceOp :=
  [.inp, .out, .ski, .sko, .ion, .iof]

def mnemonic : DeviceOp → String
  | .inp => "INP"
  | .out => "OUT"
  | .ski => "SKI"
  | .sko => "SKO"
  | .ion => "ION"
  | .iof => "IOF"

def ofMnemonic? (text : String) : Option DeviceOp :=
  all.find? (·.mnemonic == text)

def word : DeviceOp → Word
  | .inp => 0xF800
  | .out => 0xF400
  | .ski => 0xF200
  | .sko => 0xF100
  | .ion => 0xF080
  | .iof => 0xF040

end DeviceOp

namespace Directive

def all : List Directive :=
  [.origin, .finish, .decimal, .hexadecimal]

def mnemonic : Directive → String
  | .origin => "ORG"
  | .finish => "END"
  | .decimal => "DEC"
  | .hexadecimal => "HEX"

end Directive

/-- The word that follows the operand of an indirect memory reference. -/
def indirectMark : String := "I"

/-- The class of an operation. -/
inductive OperationClass where
  | memory | register | device | directive
  deriving DecidableEq, Repr

namespace OperationClass

def all : List OperationClass :=
  [.memory, .register, .device, .directive]

def name : OperationClass → String
  | .memory => "MRI"
  | .register => "RRI"
  | .device => "IO"
  | .directive => "PSEUDO"

/-- The refusal of a text that names no class. -/
structure Unknown where
  text : String
  deriving DecidableEq, Repr

def Unknown.message (e : Unknown) : String :=
  Text.quoted e.text ++ " is not a valid InstructionType"

def ofName (text : String) : Except Unknown OperationClass :=
  match all.find? (·.name == text) with
  | some c => .ok c
  | none => .error ⟨text⟩

end OperationClass

namespace Operation

def all : List Operation :=
  MemoryOp.all.map .memory ++ RegisterOp.all.map .register ++ DeviceOp.all.map .device ++
    Directive.all.map .directive

def mnemonic : Operation → String
  | .memory op => op.mnemonic
  | .register op => op.mnemonic
  | .device op => op.mnemonic
  | .directive d => d.mnemonic

def ofMnemonic? (text : String) : Option Operation :=
  all.find? (·.mnemonic == text)

/-- The class of an operation. -/
def toClass : Operation → OperationClass
  | .memory _ => .memory
  | .register _ => .register
  | .device _ => .device
  | .directive _ => .directive

/-- Sets the address of the next word. -/
abbrev org : Operation := .directive .origin

/-- Ends the program. -/
abbrev fin : Operation := .directive .finish

end Operation

end TwoPass
