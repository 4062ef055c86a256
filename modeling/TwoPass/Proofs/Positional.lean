import Mathlib.Data.List.Forall2
import Mathlib.Data.List.Induction
import Mathlib.Data.Nat.Digits.Defs
import TwoPass.Proofs.Numerals

/-!
# Positional notation

What digits stand for, said by their places: the digit at a place has a value below the base, and
counts as often as the base to the power of the places after it. `denotes_iff` says that the reading
of digits from the left computes this number, and `denotes_padded` that a numeral stands for the
number it was written for.
-/

namespace TwoPass.Numeral

/-- Whether a character is the digit of a value in a base. Letters are digits in either case. -/
def IsDigit (base d : Nat) (c : Char) : Prop :=
  d < base ∧ ("0123456789ABCDEF".toList[d]? = some c ∨ "0123456789abcdef".toList[d]? = some c)

/-- Whether digits, at least one of them, stand for a number in a base. -/
def Denotes (base : Nat) (ds : List Char) (n : Nat) : Prop :=
  ∃ values, List.Forall₂ (IsDigit base) values ds ∧ values ≠ [] ∧
    Nat.ofDigits base values.reverse = n

theorem isHexDigit_iff {c : Char} : isHexDigit c = true ↔
    48 ≤ c.toNat ∧ c.toNat ≤ 57 ∨ 97 ≤ c.toNat ∧ c.toNat ≤ 102 ∨ 65 ≤ c.toNat ∧ c.toNat ≤ 70 := by
  unfold isHexDigit Char.isDigit
  simp only [Bool.or_eq_true, Bool.and_eq_true, decide_eq_true_eq, Char.le_def, ge_iff_le,
    UInt32.le_iff_toNat_le, or_assoc]
  rfl

theorem isDigit_iff {base d : Nat} (hle : base ≤ 16) {c : Char} :
    IsDigit base d c ↔ isHexDigit c = true ∧ digitValue c = d ∧ d < base := by
  constructor
  · rintro ⟨hd, hc⟩
    have hlt : d < 16 := by omega
    refine (and_assoc.1 ⟨?_, hd⟩)
    interval_cases d <;> rcases hc with hc | hc <;> cases hc <;> decide
  · rintro ⟨hc, rfl, hd⟩
    refine ⟨hd, ?_⟩
    have hchar : c = Char.ofNat c.toNat := (Char.ofNat_toNat c).symm
    rw [isHexDigit_iff] at hc
    rw [hchar]
    rcases hc with ⟨hlo, hhi⟩ | ⟨hlo, hhi⟩ | ⟨hlo, hhi⟩ <;> interval_cases c.toNat <;> decide

theorem value_eq_ofDigits (base : Nat) (ds : List Char) :
    value base ds = Nat.ofDigits base (ds.map digitValue).reverse := by
  induction ds using List.reverseRecOn with
  | nil => rfl
  | append_singleton ds d ih =>
    rw [value_concat, ih, List.map_append, List.map_singleton, List.reverse_append,
      List.reverse_singleton, List.singleton_append, Nat.ofDigits_cons, Nat.mul_comm, Nat.add_comm]

theorem forall₂_isDigit_iff {base : Nat} (hle : base ≤ 16) {values : List Nat} {ds : List Char} :
    List.Forall₂ (IsDigit base) values ds ↔
      values = ds.map digitValue ∧ ∀ c ∈ ds, isHexDigit c = true ∧ digitValue c < base := by
  induction ds generalizing values with
  | nil => simp [List.forall₂_nil_right_iff]
  | cons d ds ih =>
    rw [List.forall₂_cons_right_iff, List.forall_mem_cons, List.map_cons]
    constructor
    · rintro ⟨value, rest, hd, hrest, rfl⟩
      obtain ⟨hhex, rfl, hlt⟩ := (isDigit_iff hle).1 hd
      obtain ⟨rfl, hds⟩ := ih.1 hrest
      exact ⟨rfl, ⟨hhex, hlt⟩, hds⟩
    · rintro ⟨rfl, ⟨hhex, hlt⟩, hds⟩
      exact ⟨_, _, (isDigit_iff hle).2 ⟨hhex, rfl, hlt⟩, ih.2 ⟨rfl, hds⟩, rfl⟩

/-- Digits stand for the number that is read from them. -/
theorem denotes_iff {base : Nat} (hle : base ≤ 16) {ds : List Char} {n : Nat} :
    Denotes base ds n ↔ ds ≠ [] ∧ (∀ c ∈ ds, isHexDigit c = true ∧ digitValue c < base) ∧
      value base ds = n := by
  constructor
  · rintro ⟨values, hdigits, hne, hvalue⟩
    obtain ⟨rfl, hds⟩ := (forall₂_isDigit_iff hle).1 hdigits
    exact ⟨fun hnil => hne (by rw [hnil]; rfl), hds, (value_eq_ofDigits base ds).trans hvalue⟩
  · rintro ⟨hne, hds, hvalue⟩
    exact ⟨ds.map digitValue, (forall₂_isDigit_iff hle).2 ⟨rfl, hds⟩,
      fun hnil => hne (List.map_eq_nil_iff.1 hnil), (value_eq_ofDigits base ds).symm.trans hvalue⟩

theorem denotes_padded {base : Nat} (hb : 1 < base) (hle : base ≤ 16) (width n : Nat) :
    Denotes base (padded base width n).toList n := by
  rw [denotes_iff hle]
  refine ⟨?_, ?_, value_padded hb hle⟩
  · rw [toList_padded]
    exact List.append_ne_nil_of_right_ne_nil _ (digits_ne_nil hb n)
  · intro c hc
    obtain ⟨d, hd, rfl⟩ := exists_digit_of_mem_padded hb hc
    have hlt : d < 16 := by omega
    rw [digitValue_digit hlt]
    exact ⟨isHexDigit_of_isUpperHexDigit (isUpperHexDigit_digit hlt), hd⟩

end TwoPass.Numeral
