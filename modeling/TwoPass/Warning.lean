import TwoPass.Machine.Operation
import TwoPass.Source.Location

/-!
# Warnings

What the assembler tolerates and reports: a cause and where it was found.
-/

namespace TwoPass

/-- The causes of a warning. `custom` is worded by the caller. -/
inductive Remark where
  /-- A label was defined again and moved. -/
  | rebound (label : String) (before after : Int)
  /-- A memory reference has no operand. -/
  | operandMissing (op : Operation)
  /-- A memory reference names an unknown label. -/
  | undefinedLabel (label : String)
  /-- A label's address does not fit the address field. -/
  | truncated (label : String) (address : Int)
  /-- An operation without operands has one. -/
  | operandIgnored (op : Operation) (operand : String)
  | custom (text : String)
  deriving DecidableEq, Repr

def Remark.text : Remark → String
  | .rebound label before after =>
    "label '" ++ label ++ "' redefined: " ++ Numeral.address before ++ " -> " ++
      Numeral.address after
  | .operandMissing op => op.mnemonic ++ " has no operand, using address 0"
  | .undefinedLabel label => "undefined symbol '" ++ label ++ "', using address 0"
  | .truncated label address =>
    "address " ++ Numeral.address address ++ " of '" ++ label ++ "' truncated to " ++
      Numeral.decimal addressBits ++ " bits ($" ++
      Numeral.hex 3 (BitVec.ofInt 12 address).toNat ++ ")"
  | .operandIgnored op operand => op.mnemonic ++ " takes no operand, ignoring '" ++ operand ++ "'"
  | .custom text => text

structure Warning where
  remark : Remark
  location : Option Location := none
  deriving DecidableEq, Repr

def Warning.message (w : Warning) : String :=
  match w.location with
  | some l => l.text ++ ": warning: " ++ w.remark.text
  | none => "warning: " ++ w.remark.text

end TwoPass
