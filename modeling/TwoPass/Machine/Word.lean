import TwoPass.Text.Numeral
import TwoPass.Text.Quoted

/-!
# Machine words

The machine stores words of sixteen bits and addresses its memory with twelve of them. A word is
written as sixteen binary digits or as four hexadecimal ones.
-/

namespace TwoPass

/-- The bits of a word. -/
def wordBits : Nat := 16

/-- The bits of the address field of a memory-reference word. -/
def addressBits : Nat := 12

/-- The largest value of a word, and the last address. -/
def wordMax : Nat := 0xFFFF

/-- The largest address that the address field holds. -/
def addressMax : Nat := 0xFFF

/-- The smallest value of a signed word. -/
def signedMin : Int := -0x8000

abbrev Word := BitVec 16

/-- The low bits of an address, which are what a word has room for. -/
abbrev AddressField := BitVec 12

namespace Word

/-- The word of an integer: its residue, so that negative integers are in two's complement. -/
def ofInt (value : Int) : Word :=
  BitVec.ofInt 16 value

/-- The sixteen binary digits of a word. -/
def binary (w : Word) : String :=
  Numeral.binary wordBits w.toNat

/-- The four hexadecimal digits of a word. -/
def hex (w : Word) : String :=
  Numeral.hex 4 w.toNat

/-- The refusal of a text that is not a word in binary. -/
structure Malformed where
  text : String
  deriving DecidableEq, Repr

def Malformed.message (e : Malformed) : String :=
  "machine word must be " ++ Numeral.decimal wordBits ++ " binary digits, got " ++
    Text.quoted e.text

/-- The word that sixteen binary digits stand for. -/
def ofBinary (text : String) : Except Malformed Word :=
  let ds := text.toList
  if ds.length == wordBits && ds.all (fun d => d == '0' || d == '1') then
    .ok (BitVec.ofNat 16 (Numeral.value 2 ds))
  else
    .error ⟨text⟩

end Word

end TwoPass
