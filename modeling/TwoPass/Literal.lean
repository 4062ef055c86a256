import TwoPass.Statement

/-!
# Literal operands

The operands of directives are numbers: hexadecimal for an address or a word, decimal with an
optional sign for a signed or an unsigned word. Decimal numerals have a limited number of digits.
-/

namespace TwoPass

/-- Why a program cannot be assembled: a problem of the program, or a decimal numeral of more digits
than are read. -/
inductive Fault where
  | diagnostic (d : Diagnostic)
  | numeralTooLong (digits : Nat)
  deriving DecidableEq, Repr

/-- The most digits of a decimal numeral, leading zeros included. -/
def maxDigits : Nat := 4300

def Fault.message : Fault → String
  | .diagnostic d => d.message
  | .numeralTooLong digits =>
    "Exceeds the limit (" ++ Numeral.decimal maxDigits ++
      " digits) for integer string conversion: value has " ++ Numeral.decimal digits ++
      " digits; use sys.set_int_max_str_digits() to increase the limit"

/-- Hexadecimal digits, at least one of them. -/
def isHexNumeral (ds : List Char) : Bool :=
  !ds.isEmpty && ds.all Numeral.isHexDigit

/-- Decimal digits, at least one of them. -/
def isDecimalNumeral (ds : List Char) : Bool :=
  !ds.isEmpty && ds.all Char.isDigit

/-- The sign of a numeral, true for minus, and what follows it. -/
def splitSign : List Char → Bool × List Char
  | '-' :: ds => (true, ds)
  | '+' :: ds => (false, ds)
  | ds => (false, ds)

namespace SourceStatement

/-- A problem at a statement. -/
def problem (s : SourceStatement) (p : Problem) : Diagnostic :=
  ⟨p, s.origin⟩

/-- The flaw of the literal that is the statement's operand. -/
def badLiteral (s : SourceStatement) (literal : String) (flaw : LiteralFlaw) : Diagnostic :=
  s.problem (.badLiteral s.op.mnemonic literal flaw)

/-- The value of a hexadecimal operand, which must fit a word. -/
def hexOperand (s : SourceStatement) : Except Diagnostic Nat :=
  match s.operand with
  | none => .error (s.problem (.operandMissing s.op))
  | some text =>
    if isHexNumeral text.toList then
      let value := Numeral.value 16 text.toList
      if value ≤ wordMax then .ok value else .error (s.badLiteral text .aboveWord)
    else .error (s.badLiteral text .notHexadecimal)

/-- The value of a decimal operand, which must fit a signed or an unsigned word. -/
def decimalOperand (s : SourceStatement) : Except Fault Int :=
  match s.operand with
  | none => .error (.diagnostic (s.problem (.operandMissing s.op)))
  | some text =>
    let (negative, ds) := splitSign text.toList
    if isDecimalNumeral ds then
      if maxDigits < ds.length then .error (.numeralTooLong ds.length)
      else
        let magnitude : Int := Numeral.value 10 ds
        let value := if negative then -magnitude else magnitude
        if signedMin ≤ value ∧ value ≤ wordMax then .ok value
        else .error (.diagnostic (s.badLiteral text .outsideRange))
    else .error (.diagnostic (s.badLiteral text .notDecimal))

end SourceStatement

end TwoPass
