import Mathlib.Data.Nat.Digits.Lemmas
import TwoPass.Proofs.Positional
import TwoPass.Proofs.WordLayout

/-!
# Binary fields

A number is written in a field by its binary digits, with zeros before them if the field is wider
than they are. The digits of a field stand for the number, and sixteen digits are the field of the
word that they are read as. A word holds an integer as its residue, and read as two's complement it
gives back every integer that has the range of a signed word. A field cannot be wider than there are
indices, however much room there is.
-/

namespace TwoPass

namespace Numeral

section Digits

variable {base : Nat} {ds : List Char}

theorem value_cons (d : Char) (ds : List Char) :
    value base (d :: ds) = digitValue d * base ^ ds.length + value base ds := by
  rw [value_eq_ofDigits, value_eq_ofDigits, List.map_cons, List.reverse_cons, Nat.ofDigits_append,
    Nat.ofDigits_singleton, List.length_reverse, List.length_map, Nat.add_comm, Nat.mul_comm]

theorem value_lt (hb : 1 < base) (hds : ∀ c ∈ ds, digitValue c < base) :
    value base ds < base ^ ds.length := by
  have hvalues : ∀ d ∈ (ds.map digitValue).reverse, d < base := by
    intro d hd
    obtain ⟨c, hc, rfl⟩ := List.mem_map.1 (List.mem_reverse.1 hd)
    exact hds c hc
  have hlt := Nat.ofDigits_lt_base_pow_length hb hvalues
  rwa [List.length_reverse, List.length_map, ← value_eq_ofDigits] at hlt

/-- Digits are what the number that they stand for is written with, in a field as wide as they
are. -/
theorem leftpad_digits_value (hb : 1 < base) (hle : base ≤ 16) (hne : ds ≠ [])
    (hds : ∀ c ∈ ds, ∃ d < base, c = digit d) :
    (digits base (value base ds)).leftpad ds.length '0' = ds := by
  induction ds using List.reverseRecOn with
  | nil => exact absurd rfl hne
  | append_singleton ds c ih =>
    rw [List.forall_mem_append, List.forall_mem_singleton] at hds
    obtain ⟨hrest, d, hd, rfl⟩ := hds
    have hdigit : digitValue (digit d) = d := digitValue_digit (by omega)
    rw [value_concat, hdigit, List.length_append, List.length_singleton]
    cases ds with
    | nil =>
      show (digits base (0 * base + d)).leftpad 1 '0' = [digit d]
      rw [Nat.zero_mul, Nat.zero_add, digits_of_lt hd]
      rfl
    | cons c ds =>
      have hlast : d < base ^ 1 := by rwa [Nat.pow_one]
      have hsplit : (digits base (value base (c :: ds) * base ^ 1 + d)).leftpad
          ((c :: ds).length + 1) '0' = _ :=
        leftpad_digits_append hb (Nat.succ_pos ds.length) Nat.one_pos hlast
      rw [Nat.pow_one, digits_of_lt hd] at hsplit
      exact hsplit.trans (congrArg (· ++ [digit d]) (ih (List.cons_ne_nil _ _) hrest))

end Digits

section Binary

theorem value_two_lt {ds : List Char} (hds : ∀ c ∈ ds, c = '0' ∨ c = '1') :
    value 2 ds < 2 ^ ds.length := by
  apply value_lt (by decide)
  intro c hc
  rcases hds c hc with rfl | rfl <;> decide

theorem length_digits_two (n : Nat) : (digits 2 n).length = n.log2 + 1 := by
  have hpos : 0 < (digits 2 n).length := List.length_pos_of_ne_nil (digits_ne_nil (by decide) n)
  have hle : (digits 2 n).length ≤ n.log2 + 1 :=
    (length_digits_le_iff (by decide) (Nat.succ_pos _)).2 Nat.lt_log2_self
  by_contra hlt
  -- with fewer digits the number would be below the power of two that its logarithm gives
  have hshort : (digits 2 n).length ≤ n.log2 := by omega
  have hbelow := (length_digits_le_iff (by decide) (by omega)).1 hshort
  by_cases hn : n = 0
  · rw [hn, Nat.log2_zero] at hshort
    rw [hn] at hpos
    omega
  · exact absurd (Nat.log2_self_le hn) (Nat.not_le.2 hbelow)

theorem length_binary (width n : Nat) :
    (binary width n).toList.length = max width (n.log2 + 1) := by
  show (padded 2 width n).toList.length = _
  rw [toList_padded, List.length_leftpad, length_digits_two]

theorem binary_of_value {text : String} (hne : text.toList ≠ [])
    (htext : ∀ c ∈ text.toList, c = '0' ∨ c = '1') :
    binary text.toList.length (value 2 text.toList) = text := by
  apply String.toList_inj.1
  show (padded 2 _ (value 2 text.toList : Nat)).toList = _
  rw [toList_padded]
  refine leftpad_digits_value (by decide) (by decide) hne fun c hc => ?_
  rcases htext c hc with rfl | rfl
  · exact ⟨0, by decide, by decide⟩
  · exact ⟨1, by decide, by decide⟩

/-- A text that holds a number in a binary field: only binary digits, which stand for the number, as
many as the field is wide or as the number needs if these are more. -/
structure IsBinaryField (width n : Nat) (text : String) : Prop where
  digit : ∀ c ∈ text.toList, c = '0' ∨ c = '1'
  denotes : Denotes 2 text.toList n
  length : text.toList.length = max width (n.log2 + 1)

theorem isBinaryField_binary (width n : Nat) : IsBinaryField width n (binary width n) := by
  refine ⟨?_, denotes_padded (by decide) (by decide) width n, length_binary width n⟩
  intro c hc
  obtain ⟨d, hd, rfl⟩ := exists_digit_of_mem_padded (by decide : 1 < 2) hc
  exact digit_of_lt_two hd

theorem IsBinaryField.length_eq {width n : Nat} {text : String} (h : IsBinaryField width n text)
    (hw : 1 ≤ width) (hn : n < 2 ^ width) : text.toList.length = width := by
  have hlog : n.log2 < width := by
    by_cases hzero : n = 0
    · rw [hzero, Nat.log2_zero]
      exact hw
    · exact (Nat.log2_lt hzero).2 hn
  rw [h.length]
  omega

theorem length_binary_zero (n : Nat) : (binary 0 n).length = n.log2 + 1 := by
  rw [← String.length_toList, length_binary]
  omega

/-- When a field is written: its width is an index, and there is room for all of its text, which is
that of the number if the number is wider. -/
theorem binaryField_natCast (room width n : Nat) :
    binaryField room width n =
      if 2 ^ 63 ≤ width then .error (.overlong .unindexable)
      else if room < max width (n.log2 + 1) then .error (.overlong .noRoom)
      else .ok (binary width n) := by
  have hwidth : ¬ (width : Int) < 0 := by omega
  have hindex : Text.maxIndex < width ↔ 2 ^ 63 ≤ width := Iff.rfl
  rw [binaryField, if_neg hwidth, Int.toNat_natCast, Text.overlong?, length_binary_zero]
  simp only [hindex]
  by_cases hlong : 2 ^ 63 ≤ width
  · rw [if_pos hlong, if_pos hlong]
  · rw [if_neg hlong, if_neg hlong]
    by_cases hfield : room < width
    · have hnone : room < max width (n.log2 + 1) := by omega
      rw [if_pos hfield, if_pos hnone]
    · -- the field has room, so that what counts is the width of the number
      have hnumber : room < max width (n.log2 + 1) ↔ room < n.log2 + 1 := by omega
      rw [if_neg hfield]
      simp only [hnumber]

theorem binaryField_of_room {room width n : Nat} (hindex : width < 2 ^ 63)
    (hroom : max width (n.log2 + 1) ≤ room) : binaryField room width n = .ok (binary width n) := by
  rw [binaryField_natCast, if_neg (Nat.not_le.2 hindex), if_neg (Nat.not_lt.2 hroom)]

/-- The integer that binary digits stand for in two's complement, where the first digit counts
against the others. -/
def twosComplement : List Char → Int
  | [] => 0
  | sign :: ds => value 2 ds - digitValue sign * 2 ^ ds.length

end Binary

end Numeral

namespace Word

/-- An integer in the range of a signed word is read back from its digits. -/
theorem twosComplement_binary_ofInt {v : Int} (hlo : -32768 ≤ v) (hhi : v ≤ 32767) :
    Numeral.twosComplement (ofInt v).binary.toList = v := by
  have hnumber : ((Numeral.value 2 (ofInt v).binary.toList : Nat) : Int) = v % 65536 := by
    rw [value_binary, toNat_ofInt]
  have hlength := (ofInt v).length_binary
  have hdigits : ∀ c ∈ (ofInt v).binary.toList, c = '0' ∨ c = '1' := fun c => (ofInt v).binary_digit
  cases htext : (ofInt v).binary.toList with
  | nil =>
    rw [htext] at hlength
    cases hlength
  | cons sign ds =>
    rw [htext] at hnumber hlength hdigits
    rw [List.forall_mem_cons] at hdigits
    have hds : ds.length = 15 := Nat.succ.inj hlength
    have hlt := Numeral.value_two_lt hdigits.2
    rw [Numeral.value_cons, hds] at hnumber
    rw [hds] at hlt
    rw [Numeral.twosComplement, hds]
    rcases hdigits.1 with rfl | rfl
    · have hzero : Numeral.digitValue '0' = 0 := rfl
      rw [hzero] at hnumber ⊢
      omega
    · have hone : Numeral.digitValue '1' = 1 := rfl
      rw [hone] at hnumber ⊢
      omega

theorem exists_ofBinary {text : String} (hlength : text.toList.length = 16)
    (htext : ∀ c ∈ text.toList, c = '0' ∨ c = '1') :
    ∃ w, ofBinary text = .ok w ∧ w.toNat = Numeral.value 2 text.toList := by
  have hdigits : text.toList.all (fun d => d == '0' || d == '1') = true := by
    rw [List.all_eq_true]
    intro c hc
    rcases htext c hc with rfl | rfl <;> rfl
  have hlt := Numeral.value_two_lt htext
  have hbits : (text.toList.length == wordBits) = true := beq_iff_eq.2 hlength
  refine ⟨BitVec.ofNat 16 (Numeral.value 2 text.toList), ?_, ?_⟩
  · unfold ofBinary
    simp only [hbits, hdigits, Bool.and_self, if_true]
  · rw [BitVec.toNat_ofNat]
    rw [hlength] at hlt
    exact Nat.mod_eq_of_lt hlt

end Word

/-- Binary fields are exact. A number is written in a field of any width that is an index, if there
is room for the text, and in no wider one. The text has only binary digits, which stand for the
number, as many as the field is wide or as the number needs if these are more. An integer in a word
has sixteen digits, which stand for its residue and, in two's complement, for every integer of the
signed range. Sixteen binary digits are the field of the word that they are read as, and its
hexadecimal digits stand for the same number. -/
theorem Numeral.binary_fields_exact :
    (∀ room v w : Nat, w < 2 ^ 63 → max w (v.log2 + 1) ≤ room →
      ∃ text, binaryField room w v = .ok text ∧ IsBinaryField w v text ∧
        (1 ≤ w → v < 2 ^ w → text.toList.length = w)) ∧
    (∀ room v w : Nat,
      (2 ^ 63 ≤ w → binaryField room w v = .error (.overlong .unindexable)) ∧
      (w < 2 ^ 63 → room < max w (v.log2 + 1) →
        binaryField room w v = .error (.overlong .noRoom))) ∧
    (∀ v : Int,
      (Word.ofInt v).binary.toList.length = 16 ∧
      IsBinaryField 16 (v % 65536).toNat (Word.ofInt v).binary ∧
      (-32768 ≤ v → v ≤ 32767 → twosComplement (Word.ofInt v).binary.toList = v)) ∧
    ∀ text : String, text.toList.length = 16 → (∀ c ∈ text.toList, c = '0' ∨ c = '1') →
      ∃ w, Word.ofBinary text = .ok w ∧ Denotes 2 text.toList w.toNat ∧ w.binary = text ∧
        (∀ room ≥ 16, binaryField room 16 w.toNat = .ok text) ∧
        w.hex.toList.length = 4 ∧ (∀ c ∈ w.hex.toList, isUpperHexDigit c = true) ∧
        Denotes 16 w.hex.toList w.toNat := by
  refine ⟨fun room v w hindex hroom => ?_, fun room v w => ?_, fun v => ?_,
    fun text hlength htext => ?_⟩
  · have hfield := isBinaryField_binary w v
    exact ⟨_, binaryField_of_room hindex hroom, hfield, hfield.length_eq⟩
  · refine ⟨fun hindex => ?_, fun hindex hroom => ?_⟩
    · rw [binaryField_natCast, if_pos hindex]
    · rw [binaryField_natCast, if_neg (Nat.not_le.2 hindex), if_pos hroom]
  · have hresidue : (Word.ofInt v).toNat = (v % 65536).toNat := by
      have hword := Word.toNat_ofInt v
      omega
    refine ⟨(Word.ofInt v).length_binary, ?_, Word.twosComplement_binary_ofInt⟩
    rw [← hresidue]
    exact isBinaryField_binary wordBits (Word.ofInt v).toNat
  · obtain ⟨w, hread, hvalue⟩ := Word.exists_ofBinary hlength htext
    have hfield : binary 16 w.toNat = text := by
      have hne : text.toList ≠ [] := by
        intro hnil
        rw [hnil] at hlength
        cases hlength
      have hdigits := binary_of_value hne htext
      rwa [hlength, ← hvalue] at hdigits
    have hwritten := isBinaryField_binary 16 w.toNat
    rw [hfield] at hwritten
    refine ⟨w, hread, hwritten.denotes, hfield, fun room hroom => ?_,
      length_padded (by decide) (by decide) w.isLt, fun c hc => isUpperHexDigit_of_mem_hex hc,
      denotes_padded (by decide) (by decide) 4 w.toNat⟩
    have hbits : max 16 (w.toNat.log2 + 1) ≤ room := by
      rw [← hwritten.length, hlength]
      exact hroom
    have hindex : 16 < 2 ^ 63 := by decide
    rw [← hfield]
    exact binaryField_of_room hindex hbits

theorem Numeral.binary_fields_exact_at_boundaries :
    (∃ text, binaryField 4 4 15 = .ok text ∧ text.toList.length = 4) ∧
    (∃ text, binaryField 5 4 16 = .ok text ∧ text.toList.length = 5 ∧ Denotes 2 text.toList 16) ∧
    binaryField 4 4 16 = .error (.overlong .noRoom) ∧
    IsBinaryField 16 65535 (Word.ofInt (-65537)).binary ∧
    twosComplement (Word.ofInt (-32768)).binary.toList = -32768 ∧
    ∃ w, Word.ofBinary "1010111111111111" = .ok w ∧
      binaryField 16 16 w.toNat = .ok "1010111111111111" ∧
      Denotes 16 w.hex.toList w.toNat ∧ w.hex = "AFFF" := by
  have hall : "1010111111111111".toList.all (fun d => d == '0' || d == '1') = true := by decide
  have hdigits : ∀ c ∈ "1010111111111111".toList, c = '0' ∨ c = '1' := by
    simpa only [List.all_eq_true, Bool.or_eq_true, beq_iff_eq] using hall
  obtain ⟨hfields, hrefused, hwords, htexts⟩ := binary_fields_exact
  obtain ⟨four, hfour, -, hexact⟩ := hfields 4 15 4 (by decide) (by decide)
  obtain ⟨five, hfive, hwide, -⟩ := hfields 5 16 4 (by decide) (by decide)
  obtain ⟨-, hnegative, -⟩ := hwords (-65537)
  have hresidue : ((-65537 : Int) % 65536).toNat = 65535 := by decide
  rw [hresidue] at hnegative
  obtain ⟨w, hread, -, -, hfield, -, -, hhex⟩ := htexts "1010111111111111" (by decide) hdigits
  refine ⟨⟨four, hfour, hexact (by decide) (by decide)⟩,
    ⟨five, hfive, hwide.length.trans (by decide), hwide.denotes⟩,
    (hrefused 4 16 4).2 (by decide) (by decide), hnegative,
    (hwords (-32768)).2.2 (by decide) (by decide), w, hread, hfield 16 (by decide), hhex, ?_⟩
  cases hread
  decide

/-- The first width beyond every index is refused, with all the room that one could ask for. -/
theorem Numeral.unindexable_width_refused :
    binaryField (2 ^ 64) (2 ^ 63 : Nat) 0 = .error (.overlong .unindexable) ∧
    (∀ text, binaryField (2 ^ 64) (2 ^ 63 : Nat) 0 ≠ .ok text) ∧
    (WidthError.overlong .unindexable).message = "Too many decimal digits in format string" := by
  have hrefused : binaryField (2 ^ 64) (2 ^ 63 : Nat) 0 = .error (.overlong .unindexable) :=
    (binaryField_natCast (2 ^ 64) (2 ^ 63) 0).trans (if_pos (Nat.le_refl _))
  refine ⟨hrefused, ?_, rfl⟩
  intro text
  rw [hrefused]
  nofun

end TwoPass
