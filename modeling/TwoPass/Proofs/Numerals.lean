import Mathlib.Tactic.IntervalCases
import TwoPass.Literal
import TwoPass.Machine.Word

/-!
# Numerals read back

The digits of a number stand for that number again, in every base up to sixteen and with any zeros
before them. A number that fits a width is written in exactly that width.
-/

namespace TwoPass

namespace Numeral

/-- Whether a character is a hexadecimal digit in upper case. -/
def isUpperHexDigit (c : Char) : Bool :=
  c.isDigit || ('A' ≤ c && c ≤ 'F')

def digit (d : Nat) : Char :=
  (Nat.digitChar d).toUpper

theorem digitValue_digit {d : Nat} (hd : d < 16) : digitValue (digit d) = d := by
  interval_cases d <;> decide

theorem isUpperHexDigit_digit {d : Nat} (hd : d < 16) : isUpperHexDigit (digit d) = true := by
  interval_cases d <;> decide

theorem digit_of_lt_two {d : Nat} (hd : d < 2) : digit d = '0' ∨ digit d = '1' := by
  interval_cases d <;> decide

theorem isHexDigit_of_isUpperHexDigit {c : Char} (h : isUpperHexDigit c = true) :
    isHexDigit c = true := by
  unfold isUpperHexDigit at h
  unfold isHexDigit
  rcases Bool.or_eq_true_iff.1 h with hd | hu
  · rw [hd]; rfl
  · rw [hu, Bool.or_true]

variable {base : Nat}

theorem digits_of_lt {n : Nat} (h : n < base) : digits base n = [digit n] := by
  rw [digits, Nat.toDigits_of_lt_base h]
  rfl

theorem digits_of_le (hb : 1 < base) {n : Nat} (h : base ≤ n) :
    digits base n = digits base (n / base) ++ [digit (n % base)] := by
  rw [digits, Nat.toDigits_of_base_le hb h, List.map_append]
  rfl

theorem digits_ne_nil (hb : 1 < base) (n : Nat) : digits base n ≠ [] := by
  by_cases hn : n < base
  · rw [digits_of_lt hn]
    exact List.cons_ne_nil _ _
  · rw [digits_of_le hb (Nat.not_lt.1 hn)]
    exact List.append_ne_nil_of_right_ne_nil _ (List.cons_ne_nil _ _)

theorem length_digits_le_iff (hb : 1 < base) {n width : Nat} (hw : 0 < width) :
    (digits base n).length ≤ width ↔ n < base ^ width := by
  rw [digits, List.length_map, Nat.length_toDigits_le_iff hb hw]

theorem exists_digit_of_mem (hb : 1 < base) {n : Nat} {c : Char} (hc : c ∈ digits base n) :
    ∃ d < base, c = digit d := by
  induction n using Nat.strongRecOn with
  | ind n ih =>
    by_cases h : n < base
    · rw [digits_of_lt h, List.mem_singleton] at hc
      exact ⟨n, h, hc⟩
    · have hle : base ≤ n := Nat.not_lt.1 h
      rw [digits_of_le hb hle, List.mem_append, List.mem_singleton] at hc
      rcases hc with hc | hc
      · exact ih (n / base) (Nat.div_lt_self (by omega) hb) hc
      · exact ⟨n % base, Nat.mod_lt n (by omega), hc⟩

theorem value_concat (base : Nat) (ds : List Char) (d : Char) :
    value base (ds ++ [d]) = value base ds * base + digitValue d := by
  rw [value, List.foldl_append]
  rfl

/-- The digits of a number stand for it. -/
theorem value_digits (hb : 1 < base) (hle : base ≤ 16) (n : Nat) :
    value base (digits base n) = n := by
  induction n using Nat.strongRecOn with
  | ind n ih =>
    by_cases h : n < base
    · rw [digits_of_lt h]
      show 0 * base + digitValue (digit n) = n
      rw [digitValue_digit (by omega)]
      omega
    · have hn : base ≤ n := Nat.not_lt.1 h
      have hmod : n % base < base := Nat.mod_lt n (by omega)
      rw [digits_of_le hb hn, value_concat, ih (n / base) (Nat.div_lt_self (by omega) hb),
        digitValue_digit (by omega), Nat.mul_comm]
      exact Nat.div_add_mod n base

-- zeros in front leave the running value at zero, where it started
theorem value_leftpad (base width : Nat) (ds : List Char) :
    value base (ds.leftpad width '0') = value base ds := by
  have hzeros : ∀ k, (List.replicate k '0').foldl (fun n d => n * base + digitValue d) 0 = 0 := by
    intro k
    induction k with
    | zero => rfl
    | succ k ih =>
      rw [List.replicate_succ, List.foldl_cons]
      have hzero : 0 * base + digitValue '0' = 0 := by
        have hdigit : digitValue '0' = 0 := rfl
        rw [hdigit, Nat.zero_mul]
      rw [hzero, ih]
  rw [List.leftpad, value, List.foldl_append, hzeros]
  rfl

theorem leftpad_digits_succ {base width : Nat} (hb : 1 < base) (hw : 0 < width) (n : Nat) :
    (digits base n).leftpad (width + 1) '0' =
      (digits base (n / base)).leftpad width '0' ++ [digit (n % base)] := by
  by_cases hn : n < base
  · -- the last digit is the only one, and the quotient is a zero more
    obtain ⟨k, rfl⟩ : ∃ k, width = k + 1 := ⟨width - 1, by omega⟩
    have hzero : digit 0 = '0' := by decide
    rw [digits_of_lt hn, Nat.div_eq_of_lt hn, digits_of_lt (by omega), Nat.mod_eq_of_lt hn, hzero]
    show List.replicate (k + 1) '0' ++ [digit n] = List.replicate k '0' ++ ['0'] ++ [digit n]
    rw [List.replicate_succ']
  · rw [digits_of_le hb (Nat.not_lt.1 hn), List.leftpad, List.leftpad, List.length_append,
      List.length_singleton, Nat.add_sub_add_right, List.append_assoc]

/-- The digits that are left of a number in a field, each by its place, the highest first. -/
theorem leftpad_digits_mod {base width : Nat} (hb : 1 < base) (hw : 0 < width) (n : Nat) :
    (digits base (n % base ^ width)).leftpad width '0' =
      (List.range width).reverse.map fun i => digit (n / base ^ i % base) := by
  obtain ⟨k, rfl⟩ : ∃ k, width = k + 1 := ⟨width - 1, by omega⟩
  induction k generalizing n with
  | zero =>
    have hlt : n % base < base := Nat.mod_lt n (by omega)
    rw [Nat.zero_add, Nat.pow_one, digits_of_lt hlt]
    show [digit (n % base)] = [digit (n / base ^ 0 % base)]
    rw [Nat.pow_zero, Nat.div_one]
  | succ k ih =>
    have hquotient : n % base ^ (k + 1 + 1) / base = n / base % base ^ (k + 1) := by
      rw [Nat.pow_succ', Nat.mod_mul_right_div_self]
    have hlast : n % base ^ (k + 1 + 1) % base = n % base := by
      rw [Nat.pow_succ', Nat.mod_mul_right_mod]
    rw [leftpad_digits_succ hb (Nat.succ_pos k), hquotient, hlast, ih _ (Nat.succ_pos k),
      @List.range_succ_eq_map (k + 1), List.reverse_cons, ← List.map_reverse, List.map_append,
      List.map_map]
    -- the places of the quotient are those of the number, one further down
    refine congrArg₂ (· ++ ·) (List.map_congr_left fun i _ => ?_) ?_
    · rw [Function.comp_apply, Nat.succ_eq_add_one, Nat.pow_succ', ← Nat.div_div_eq_div_mul]
    · rw [List.map_singleton, Nat.pow_zero, Nat.div_one]

theorem toList_padded (base width n : Nat) :
    (padded base width n).toList = (digits base n).leftpad width '0' := by
  have hn : ¬ (n : Int) < 0 := by omega
  rw [padded, if_neg hn, String.toList_ofList, Int.natAbs_natCast]

section Padded

variable {n width : Nat}

theorem length_padded (hb : 1 < base) (hw : 0 < width) (hn : n < base ^ width) :
    (padded base width n).toList.length = width := by
  have hlen := (length_digits_le_iff hb hw).2 hn
  rw [toList_padded, List.length_leftpad]
  omega

theorem value_padded (hb : 1 < base) (hle : base ≤ 16) :
    value base (padded base width n).toList = n := by
  rw [toList_padded, value_leftpad, value_digits hb hle]

theorem exists_digit_of_mem_padded (hb : 1 < base) {c : Char}
    (hc : c ∈ (padded base width n).toList) : ∃ d < base, c = digit d := by
  rw [toList_padded, List.leftpad, List.mem_append, List.mem_replicate] at hc
  rcases hc with ⟨-, rfl⟩ | hc
  · exact ⟨0, by omega, by decide⟩
  · exact exists_digit_of_mem hb hc

end Padded

theorem isUpperHexDigit_of_mem_hex {n width : Nat} {c : Char} (hc : c ∈ (hex width n).toList) :
    isUpperHexDigit c = true := by
  obtain ⟨d, hd, rfl⟩ := exists_digit_of_mem_padded (by decide : 1 < 16) hc
  exact isUpperHexDigit_digit hd

/-- The hexadecimal numeral of a word is read as a literal. -/
theorem isHexNumeral_hex {n : Nat} (hn : n ≤ wordMax) : isHexNumeral (hex 4 n).toList = true := by
  have hlt : n < 16 ^ 4 := by
    have hmax : wordMax = 65535 := rfl
    omega
  have hlen : (hex 4 n).toList.length = 4 := length_padded (by decide) (by decide) hlt
  have hne : (hex 4 n).toList.isEmpty = false := by
    cases h : (hex 4 n).toList with
    | nil => rw [h] at hlen; cases hlen
    | cons c cs => rfl
  rw [isHexNumeral, hne, Bool.not_false, Bool.true_and, List.all_eq_true]
  intro c hc
  exact isHexDigit_of_isUpperHexDigit (isUpperHexDigit_of_mem_hex hc)

end Numeral

namespace Word

theorem length_binary (w : Word) : w.binary.toList.length = 16 :=
  Numeral.length_padded (by decide) (by decide) w.isLt

theorem binary_digit (w : Word) {c : Char} (hc : c ∈ w.binary.toList) : c = '0' ∨ c = '1' := by
  obtain ⟨d, hd, rfl⟩ := Numeral.exists_digit_of_mem_padded (by decide : 1 < 2) hc
  exact Numeral.digit_of_lt_two hd

/-- A word is read back from its binary digits. -/
theorem ofBinary_binary (w : Word) : ofBinary w.binary = .ok w := by
  have hdigits : w.binary.toList.all (fun d => d == '0' || d == '1') = true := by
    rw [List.all_eq_true]
    intro c hc
    rcases w.binary_digit hc with rfl | rfl <;> rfl
  have hvalue : Numeral.value 2 w.binary.toList = w.toNat :=
    Numeral.value_padded (by decide) (by decide)
  have hlen : (w.binary.toList.length == wordBits) = true := beq_iff_eq.2 w.length_binary
  unfold ofBinary
  simp only [hlen, hdigits, Bool.and_self, if_true, hvalue, BitVec.ofNat_toNat, BitVec.setWidth_eq]

end Word

end TwoPass
