import TwoPass.Proofs.Encodings
import TwoPass.Proofs.Numerals

/-!
# The layout of a word

A memory reference fills its word with two fields, of four and of twelve bits, and its binary digits
are those of the fields one after the other. So the word has sixteen digits whatever the label of
the reference stands for: a value of any size and sign enters it as its residue.
-/

namespace TwoPass

namespace Numeral

/-- The digits of two numbers side by side are those of one number, if the second number fits its
width. -/
theorem leftpad_digits_append {base high low : Nat} (hb : 1 < base) {m n : Nat} (hm : 0 < m)
    (hn : 0 < n) (hlow : low < base ^ n) :
    (digits base (high * base ^ n + low)).leftpad (m + n) '0' =
      (digits base high).leftpad m '0' ++ (digits base low).leftpad n '0' := by
  obtain ⟨k, rfl⟩ : ∃ k, n = k + 1 := ⟨n - 1, by omega⟩
  -- the last digit of the low number comes off both sides, until one digit is left of it
  induction k generalizing low with
  | zero =>
    rw [Nat.zero_add, Nat.pow_one] at hlow ⊢
    have hquotient : (high * base + low) / base = high := by
      rw [Nat.mul_comm, Nat.mul_add_div (by omega), Nat.div_eq_of_lt hlow, Nat.add_zero]
    have hrest : (high * base + low) % base = low := by
      rw [Nat.mul_comm, Nat.mul_add_mod, Nat.mod_eq_of_lt hlow]
    rw [leftpad_digits_succ hb hm, hquotient, hrest, digits_of_lt hlow]
    rfl
  | succ k ih =>
    have hpow : high * base ^ (k + 1 + 1) = base * (high * base ^ (k + 1)) := by
      rw [Nat.pow_succ base (k + 1), ← Nat.mul_assoc, Nat.mul_comm]
    have hquotient : (high * base ^ (k + 1 + 1) + low) / base =
        high * base ^ (k + 1) + low / base := by
      rw [hpow, Nat.mul_add_div (by omega)]
    have hrest : (high * base ^ (k + 1 + 1) + low) % base = low % base := by
      rw [hpow, Nat.mul_add_mod]
    have hshort : low / base < base ^ (k + 1) := by
      apply Nat.div_lt_of_lt_mul
      rwa [← Nat.pow_succ']
    rw [← Nat.add_assoc m (k + 1) 1, leftpad_digits_succ hb (by omega), hquotient, hrest,
      ih (by omega) hshort, leftpad_digits_succ hb (Nat.succ_pos k) low, List.append_assoc]

theorem binary_append {high low m n : Nat} (hm : 0 < m) (hn : 0 < n) (hlow : low < 2 ^ n) :
    binary (m + n) (high * 2 ^ n + low : Nat) = binary m high ++ binary n low := by
  apply String.toList_inj.1
  show (padded 2 (m + n) _).toList = _
  rw [String.toList_append, toList_padded, leftpad_digits_append (by decide) hm hn hlow]
  show _ = (padded 2 m high).toList ++ (padded 2 n low).toList
  rw [toList_padded, toList_padded]

end Numeral

theorem Word.toNat_ofInt (value : Int) : ((ofInt value).toNat : Int) = value % 65536 := by
  have hnonneg : 0 ≤ value % 65536 := Int.emod_nonneg value (by decide)
  show ((BitVec.ofInt 16 value).toNat : Int) = _
  rw [BitVec.toNat_ofInt]
  show ((value % 65536).toNat : Int) = _
  omega

theorem Word.value_binary (w : Word) : Numeral.value 2 w.binary.toList = w.toNat :=
  Numeral.value_padded (by decide) (by decide)

namespace MemoryOp

theorem toNat_field (op : MemoryOp) (indirect : Bool) :
    (op.field indirect).toNat = (if indirect then 8 else 0) + op.code.toNat := by
  cases indirect <;> cases op <;> decide

/-- The digits of a memory reference are those of its two fields. -/
theorem binary_word (op : MemoryOp) (indirect : Bool) (address : AddressField) :
    (op.word indirect address).binary =
      op.fieldDigits indirect ++ Numeral.binary addressBits address.toNat := by
  show Numeral.binary (4 + 12) (op.word indirect address).toNat = _
  rw [toNat_word]
  exact Numeral.binary_append (by decide) (by decide) address.isLt

theorem toNat_addressField (address : Int) :
    ((BitVec.ofInt 12 address).toNat : Int) = address % 4096 := by
  have hnonneg : 0 ≤ address % 4096 := Int.emod_nonneg address (by decide)
  rw [BitVec.toNat_ofInt]
  show ((address % 4096).toNat : Int) = _
  omega

end MemoryOp

namespace SourceStatement

variable {settings : Settings} {labels : LabelTable} {s : SourceStatement}

/-- How the word of a statement is laid out, where `find` has the values of the labels. A memory
reference has four digits for its code and the mark of an indirect address, then twelve for the
address. Any other instruction is the word that its operation has in the instruction set, and a
literal is stored as its residue. -/
def LaidOutAs (find : String → Option Int) (s : SourceStatement) (word : Word) : Prop :=
  match s.op with
  | .memory op =>
    (word.toNat : Int) = ((if s.indirect then 8 else 0) + op.code.toNat) * 4096 +
      s.resolvedAddress find % 4096 ∧
    word.binary = op.fieldDigits s.indirect ++
      Numeral.binary addressBits (s.resolvedAddress find % 4096)
  | .register op => word = op.word
  | .device op => word = op.word
  | .directive .decimal => ∃ value, s.decimalOperand = .ok value ∧ (word.toNat : Int) = value % 65536
  | .directive .hexadecimal => ∃ value, s.hexOperand = .ok value ∧ word.toNat = value % 65536
  | .directive _ => False

theorem laidOutAs_of_encode {word : Word} {warnings : List Warning}
    (h : s.encode settings labels = .ok (word, warnings)) :
    s.LaidOutAs labels.value? word := by
  unfold LaidOutAs
  cases encodes_of_encode h with
  | @memory op address _ hop hreferred =>
    obtain ⟨rfl, -⟩ := referredAddress_eq_ok hop hreferred
    have haddress := MemoryOp.toNat_addressField (s.resolvedAddress labels.value?)
    rw [hop]
    refine ⟨?_, ?_⟩
    · rw [MemoryOp.toNat_word, MemoryOp.toNat_field, ← haddress]
      split <;> omega
    · rw [MemoryOp.binary_word, haddress]
  | register hop => rw [hop]
  | device hop => rw [hop]
  | decimal hop hread =>
    rw [hop]
    exact ⟨_, hread, Word.toNat_ofInt _⟩
  | @hexadecimal value hop hread =>
    rw [hop]
    refine ⟨value, hread, ?_⟩
    have hword := Word.toNat_ofInt value
    omega

theorem exists_encode_of_lenient (hlenient : settings.strictLabels = false)
    (hop : s.op.toClass ≠ .directive) :
    ∃ word warnings, s.encode settings labels = .ok (word, warnings) := by
  unfold encode
  cases h : s.op with
  | memory op =>
    cases hr : s.referredAddress settings labels with
    | ok referred => exact ⟨_, _, rfl⟩
    | error d =>
      -- only strict labels refuse a reference
      have hstrict := (referredAddress_eq_error_iff.1 ⟨d, hr⟩).1
      rw [hlenient] at hstrict
      cases hstrict
  | register op => exact ⟨_, _, rfl⟩
  | device op => exact ⟨_, _, rfl⟩
  | directive d =>
    rw [h] at hop
    exact absurd rfl hop

/-- A word is sixteen binary digits, which are read as that word again, and it is laid out by the
class of its operation, whatever the labels stand for. Register and device operations have one word
each for every operand, mark, table and settings. Unless labels are strict every instruction is
encoded, and origins and ends never are. -/
theorem encode_lays_out (s : SourceStatement) (labels : LabelTable) (settings : Settings) :
    (∀ word warnings, s.encode settings labels = .ok (word, warnings) →
      word.binary.toList.length = 16 ∧ (∀ c ∈ word.binary.toList, c = '0' ∨ c = '1') ∧
      Word.ofBinary word.binary = .ok word ∧
      Numeral.value 2 word.binary.toList = word.toNat ∧
      s.LaidOutAs labels.value? word) ∧
    (∀ op, s.op = .register op →
      s.encode settings labels = .ok (op.word, s.ignoredOperand)) ∧
    (∀ op, s.op = .device op →
      s.encode settings labels = .ok (op.word, s.ignoredOperand)) ∧
    (settings.strictLabels = false → s.op.toClass ≠ .directive →
      ∃ word warnings, s.encode settings labels = .ok (word, warnings)) ∧
    (s.op = .org ∨ s.op = .fin →
      s.encode settings labels = .error (.diagnostic ⟨.emitsNothing s.op, s.origin⟩)) := by
  refine ⟨?_, ?_, ?_, exists_encode_of_lenient, ?_⟩
  · intro word warnings h
    exact ⟨word.length_binary, fun c => word.binary_digit, word.ofBinary_binary,
      word.value_binary, laidOutAs_of_encode h⟩
  · intro op hop
    unfold encode
    simp only [hop]
  · intro op hop
    unfold encode
    simp only [hop]
  · rintro (hop | hop)
    · unfold encode
      simp only [hop]
      rfl
    · unfold encode
      simp only [hop]
      rfl

/-- A label below every address, and one far beyond them. -/
def extremeLabels : LabelTable :=
  .ofPairs [("LOW", -1), ("HIGH", 2 ^ 70 + 5)]

theorem encode_lays_out_of_extremeLabels :
    (∃ word, (⟨⟨none, .memory .lda, some "LOW", true⟩, {}⟩ : SourceStatement).encode {}
        extremeLabels = .ok (word, []) ∧
      (word.toNat : Int) = (8 + 2) * 4096 + -1 % 4096 ∧
      word.binary = "1010" ++ "111111111111" ∧ Word.ofBinary word.binary = .ok word) ∧
    (∃ word warning, (⟨⟨none, .memory .bun, some "HIGH", false⟩, {}⟩ : SourceStatement).encode
        { strictLabels := true } extremeLabels = .ok (word, [warning]) ∧
      (word.toNat : Int) = 4 * 4096 + 5) ∧
    (∃ word warnings, (⟨⟨none, .memory .isz, some "NONE", false⟩, {}⟩ : SourceStatement).encode {}
        extremeLabels = .ok (word, warnings)) ∧
    ∃ d, (⟨⟨some "LOW", .org, some "10", false⟩, {}⟩ : SourceStatement).encode {} extremeLabels =
      .error (.diagnostic d) := by
  refine ⟨?_, ?_, ?_, ?_⟩
  · obtain ⟨word, h⟩ : ∃ word, (⟨⟨none, .memory .lda, some "LOW", true⟩, {}⟩ :
        SourceStatement).encode {} extremeLabels = .ok (word, []) := ⟨_, rfl⟩
    obtain ⟨-, -, hread, -, hnumber, hdigits⟩ := (encode_lays_out _ _ _).1 word [] h
    exact ⟨word, h, hnumber, hdigits, hread⟩
  · obtain ⟨word, warning, h⟩ : ∃ word warning, (⟨⟨none, .memory .bun, some "HIGH", false⟩, {}⟩ :
        SourceStatement).encode { strictLabels := true } extremeLabels =
          .ok (word, [warning]) := ⟨_, _, rfl⟩
    obtain ⟨-, -, -, -, hnumber, -⟩ := (encode_lays_out _ _ _).1 word [warning] h
    exact ⟨word, warning, h, hnumber⟩
  · exact (encode_lays_out _ _ _).2.2.2.1 rfl (by decide)
  · exact ⟨_, (encode_lays_out _ _ _).2.2.2.2 (Or.inl rfl)⟩

end SourceStatement

end TwoPass
