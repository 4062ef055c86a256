import TwoPass.Text.Numeral

/-!
# Reading UTF-8

Bytes are read as text when they are well formed. Otherwise the first ill-formed part is reported:
where it starts, how many bytes it spans, and what is wrong with it.
-/

namespace TwoPass.Utf8

/-- What is wrong with an ill-formed part. -/
inductive Flaw where
  /-- Its first byte starts no character. -/
  | start
  /-- A byte after the first does not continue the character. -/
  | continuation
  /-- The bytes end inside the character. -/
  | ending
  deriving DecidableEq, Repr

def Flaw.message : Flaw → String
  | .start => "invalid start byte"
  | .continuation => "invalid continuation byte"
  | .ending => "unexpected end of data"

/-- The first ill-formed part of some bytes: its position, its first byte and its size. -/
structure Fault where
  position : Nat
  byte : UInt8
  size : Nat
  flaw : Flaw
  deriving DecidableEq, Repr

def Fault.message (f : Fault) : String :=
  let place :=
    if f.size ≤ 1 then
      "byte 0x" ++ String.ofList ((Nat.toDigits 16 f.byte.toNat).leftpad 2 '0') ++
        " in position " ++ Numeral.decimal f.position
    else
      "bytes in position " ++ Numeral.decimal f.position ++ "-" ++
        Numeral.decimal (f.position + f.size - 1)
  "'utf-8' codec can't decode " ++ place ++ ": " ++ f.flaw.message

/-- The ranges that the bytes after a first byte must lie in, if that byte starts a character. -/
def owed (first : UInt8) : Option (List (UInt8 × UInt8)) :=
  let tail := (0x80, 0xBF)
  if first < 0x80 then some []
  else if first < 0xC2 then none
  else if first < 0xE0 then some [tail]
  else if first == 0xE0 then some [(0xA0, 0xBF), tail]
  else if first == 0xED then some [(0x80, 0x9F), tail]
  else if first < 0xF0 then some [tail, tail]
  else if first == 0xF0 then some [(0x90, 0xBF), tail, tail]
  else if first < 0xF4 then some [tail, tail, tail]
  else if first == 0xF4 then some [(0x80, 0x8F), tail, tail]
  else none

/-- The first fault of `bytes`, which stand at `position`. The character being read started
`size` bytes before with `byte`, and still owes the bytes of `ranges`. -/
def firstFault (position : Nat) (byte : UInt8) (size : Nat) (ranges : List (UInt8 × UInt8)) :
    List UInt8 → Fault
  | [] => ⟨position - size, byte, size, .ending⟩
  | b :: rest =>
    match ranges with
    | [] =>
      match owed b with
      | none => ⟨position, b, 1, .start⟩
      | some ranges => firstFault (position + 1) b 1 ranges rest
    | (low, high) :: ranges =>
      if low ≤ b && b ≤ high then firstFault (position + 1) byte (size + 1) ranges rest
      else ⟨position - size, byte, size, .continuation⟩

/-- The text of some bytes, or their first fault. -/
def read (bytes : ByteArray) : Except Fault String :=
  match String.fromUTF8? bytes with
  | some text => .ok text
  | none => .error (firstFault 0 0 0 [] bytes.toList)

end TwoPass.Utf8
