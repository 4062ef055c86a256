import TwoPass.Proofs.Addresses

/-!
# Encodings

What the encoding of a statement depends on. A memory reference is encoded with the address that
the label table has for its operand, cut to the width of the address field; it can fail only where
labels are strict. A literal is encoded by itself, or not at all.
-/

namespace TwoPass

/-- The number that a decimal numeral with an optional sign stands for, unchecked. -/
def signedValue (text : String) : Int :=
  if (splitSign text.toList).1 then -(Numeral.value 10 (splitSign text.toList).2 : Int)
  else Numeral.value 10 (splitSign text.toList).2

/-- An operand that is read as a decimal word: an optional sign, then at least one digit, only
decimal digits and not too many of them, in the range of a signed or an unsigned word. -/
def IsDecimalLiteral (operand : Option String) : Prop :=
  ∃ text, operand = some text ∧ isDecimalNumeral (splitSign text.toList).2 ∧
    (splitSign text.toList).2.length ≤ maxDigits ∧
    signedMin ≤ signedValue text ∧ signedValue text ≤ wordMax

theorem Operation.ofMnemonic?_mnemonic (op : Operation) :
    Operation.ofMnemonic? op.mnemonic = some op := by
  rcases op with op | op | op | op <;> cases op <;> decide

theorem Operation.mnemonic_injective {op op' : Operation} (h : op.mnemonic = op'.mnemonic) :
    op = op' := by
  have hop := Operation.ofMnemonic?_mnemonic op
  rw [h, Operation.ofMnemonic?_mnemonic] at hop
  exact (Option.some.inj hop).symm

namespace SourceStatement

variable {s : SourceStatement} {settings : Settings} {labels : LabelTable}

def IsLiteralProblem (s : SourceStatement) (p : Problem) : Prop :=
  p = .operandMissing s.op ∨ ∃ literal flaw, p = .badLiteral s.op.mnemonic literal flaw

def IsReferenceProblem (s : SourceStatement) (p : Problem) : Prop :=
  p = .addressMissing s.op ∨ ∃ label similar, p = .undefinedLabel label similar none

theorem hexOperand_problem {d : Diagnostic} (h : s.hexOperand = .error d) :
    s.IsLiteralProblem d.problem := by
  unfold hexOperand at h
  cases hop : s.operand with
  | none => rw [hop] at h; cases h; exact Or.inl rfl
  | some text =>
    simp only [hop] at h
    split at h
    · split at h
      · cases h
      · cases h; exact Or.inr ⟨_, _, rfl⟩
    · cases h; exact Or.inr ⟨_, _, rfl⟩

theorem decimalOperand_of_some {text : String} (h : s.operand = some text) :
    s.decimalOperand =
      if isDecimalNumeral (splitSign text.toList).2 then
        if maxDigits < (splitSign text.toList).2.length then
          .error (.numeralTooLong (splitSign text.toList).2.length)
        else if signedMin ≤ signedValue text ∧ signedValue text ≤ wordMax then
          .ok (signedValue text)
        else .error (.diagnostic (s.badLiteral text .outsideRange))
      else .error (.diagnostic (s.badLiteral text .notDecimal)) := by
  unfold decimalOperand
  rw [h]
  rfl

theorem decimalOperand_problem {d : Diagnostic} (h : s.decimalOperand = .error (.diagnostic d)) :
    s.IsLiteralProblem d.problem := by
  cases hop : s.operand with
  | none => unfold decimalOperand at h; rw [hop] at h; cases h; exact Or.inl rfl
  | some text =>
    rw [decimalOperand_of_some hop] at h
    split at h
    · split at h
      · cases h
      · split at h
        · cases h
        · cases h; exact Or.inr ⟨_, _, rfl⟩
    · cases h; exact Or.inr ⟨_, _, rfl⟩

theorem referredAddress_problem {d : Diagnostic}
    (h : s.referredAddress settings labels = .error d) : s.IsReferenceProblem d.problem := by
  unfold referredAddress at h
  cases hop : s.operand with
  | none =>
    simp only [hop] at h
    split at h
    · cases h; exact Or.inl rfl
    · cases h
  | some label =>
    simp only [hop] at h
    cases hv : labels.value? label with
    | some address => simp only [hv] at h; cases h
    | none =>
      simp only [hv] at h
      split at h
      · cases h; exact Or.inr ⟨_, _, rfl⟩
      · cases h

/-- The encoding of a statement that stores a word fails as the reading of its operand does. -/
theorem encode_eq_error_iff {f : Fault} (hs : s.Stores) :
    s.encode settings labels = .error f ↔
      s.op = .directive .decimal ∧ s.decimalOperand = .error f ∨
      s.op = .directive .hexadecimal ∧ (∃ d, s.hexOperand = .error d ∧ .diagnostic d = f) ∨
      (∃ op, s.op = .memory op) ∧
        ∃ d, s.referredAddress settings labels = .error d ∧ .diagnostic d = f := by
  unfold encode
  cases hop : s.op with
  | memory op => cases s.referredAddress settings labels <;> simp
  | register op => simp
  | device op => simp
  | directive dir =>
    cases dir with
    | origin => exact absurd hop hs.1
    | finish => exact absurd hop hs.2
    | decimal => cases s.decimalOperand <;> simp
    | hexadecimal => cases s.hexOperand <;> simp

theorem encode_problem {d : Diagnostic} (hs : s.Stores)
    (h : s.encode settings labels = .error (.diagnostic d)) :
    s.IsLiteralProblem d.problem ∨ s.IsReferenceProblem d.problem := by
  rcases (encode_eq_error_iff hs).1 h with ⟨-, hd⟩ | ⟨-, d', hd, heq⟩ | ⟨-, d', hd, heq⟩
  · exact Or.inl (decimalOperand_problem hd)
  · cases heq
    exact Or.inl (hexOperand_problem hd)
  · cases heq
    exact Or.inr (referredAddress_problem hd)

theorem decimalOperand_eq_error_iff :
    (∃ f, s.decimalOperand = .error f) ↔ ¬ IsDecimalLiteral s.operand := by
  cases ho : s.operand with
  | none =>
    refine ⟨fun _ => ?_, fun _ => ?_⟩
    · rintro ⟨text, htext, -⟩
      cases htext
    · unfold decimalOperand
      rw [ho]
      exact ⟨_, rfl⟩
  | some text =>
    rw [decimalOperand_of_some ho]
    have hlit : IsDecimalLiteral (some text) ↔ isDecimalNumeral (splitSign text.toList).2 ∧
        (splitSign text.toList).2.length ≤ maxDigits ∧
        signedMin ≤ signedValue text ∧ signedValue text ≤ wordMax := by
      constructor
      · rintro ⟨text', htext, hrest⟩
        cases htext
        exact hrest
      · intro hrest
        exact ⟨text, rfl, hrest⟩
    rw [hlit]
    -- in the order in which the reader looks: the digits, how many they are, the range
    by_cases hd : isDecimalNumeral (splitSign text.toList).2
    · by_cases hlen : maxDigits < (splitSign text.toList).2.length
      · rw [if_pos hd, if_pos hlen]
        exact ⟨fun _ hrest => Nat.not_lt.2 hrest.2.1 hlen, fun _ => ⟨_, rfl⟩⟩
      · by_cases hv : signedMin ≤ signedValue text ∧ signedValue text ≤ wordMax
        · rw [if_pos hd, if_neg hlen, if_pos hv]
          have hle : (splitSign text.toList).2.length ≤ maxDigits := Nat.not_lt.1 hlen
          constructor
          · rintro ⟨f, hf⟩
            cases hf
          · intro hrest
            exact absurd ⟨hd, hle, hv⟩ hrest
        · rw [if_pos hd, if_neg hlen, if_neg hv]
          exact ⟨fun _ hrest => hv hrest.2.2, fun _ => ⟨_, rfl⟩⟩
    · rw [if_neg hd]
      exact ⟨fun _ hrest => hd hrest.1, fun _ => ⟨_, rfl⟩⟩

theorem referredAddress_eq_error_iff :
    (∃ d, s.referredAddress settings labels = .error d) ↔
      settings.strictLabels = true ∧ s.operand.bind labels.value? = none := by
  unfold referredAddress
  cases s.operand with
  | none => cases settings.strictLabels <;> simp
  | some label => cases hv : labels.value? label <;> cases settings.strictLabels <;> simp [hv]

/-- A statement has no encoding if it is a literal that cannot be read or, with strict labels, a
memory reference that cannot be resolved. -/
theorem exists_encode_eq_error_iff (hs : s.Stores) :
    (∃ f, s.encode settings labels = .error f) ↔
      s.op = .directive .decimal ∧ ¬ IsDecimalLiteral s.operand ∨
      s.op = .directive .hexadecimal ∧ ¬ IsHexLiteral s.operand ∨
      settings.strictLabels = true ∧ (∃ op, s.op = .memory op) ∧
        s.operand.bind labels.value? = none := by
  constructor
  · rintro ⟨f, hf⟩
    rcases (encode_eq_error_iff hs).1 hf with ⟨hop, hd⟩ | ⟨hop, d, hd, -⟩ | ⟨hop, d, hd, -⟩
    · exact Or.inl ⟨hop, decimalOperand_eq_error_iff.1 ⟨f, hd⟩⟩
    · exact Or.inr (Or.inl ⟨hop, hexOperand_eq_error_iff.1 ⟨d, hd⟩⟩)
    · obtain ⟨hstrict, hunbound⟩ := referredAddress_eq_error_iff.1 ⟨d, hd⟩
      exact Or.inr (Or.inr ⟨hstrict, hop, hunbound⟩)
  · rintro (⟨hop, hlit⟩ | ⟨hop, hlit⟩ | ⟨hstrict, hop, hunbound⟩)
    · obtain ⟨f, hf⟩ := decimalOperand_eq_error_iff.2 hlit
      exact ⟨f, (encode_eq_error_iff hs).2 (Or.inl ⟨hop, hf⟩)⟩
    · obtain ⟨d, hd⟩ := hexOperand_eq_error_iff.2 hlit
      exact ⟨_, (encode_eq_error_iff hs).2 (Or.inr (Or.inl ⟨hop, d, hd, rfl⟩))⟩
    · obtain ⟨d, hd⟩ := referredAddress_eq_error_iff.2 ⟨hstrict, hunbound⟩
      exact ⟨_, (encode_eq_error_iff hs).2 (Or.inr (Or.inr ⟨hop, d, hd, rfl⟩))⟩

/-- The address that a memory reference is encoded with: that of its operand, else 0. -/
def resolvedAddress (find : String → Option Int) (s : SourceStatement) : Int :=
  (s.operand.bind find).getD 0

/-- The one warning that can come with the encoding of a statement, where `find` has the addresses
of the labels. -/
def remark? (find : String → Option Int) (s : SourceStatement) : Option Warning :=
  match s.op, s.operand with
  | .memory _, none => some (s.warning (.operandMissing s.op))
  | .memory _, some label =>
    match find label with
    | none => some (s.warning (.undefinedLabel label))
    | some address =>
      if addressMax < address then some (s.warning (.truncated label address)) else none
  | .register _, some operand => some (s.warning (.operandIgnored s.op operand))
  | .device _, some operand => some (s.warning (.operandIgnored s.op operand))
  | _, _ => none

theorem referredAddress_eq_ok {op : MemoryOp} {address : Int} {warnings : List Warning}
    (hop : s.op = .memory op) (h : s.referredAddress settings labels = .ok (address, warnings)) :
    address = s.resolvedAddress labels.value? ∧
      warnings = (s.remark? labels.value?).toList := by
  unfold referredAddress at h
  unfold resolvedAddress remark?
  cases ho : s.operand with
  | none =>
    simp only [ho] at h
    split at h
    · cases h
    · cases h
      rw [hop]
      exact ⟨rfl, rfl⟩
  | some label =>
    simp only [ho] at h
    simp only [hop, Option.bind_some]
    cases hv : labels.value? label with
    | some value =>
      simp only [hv] at h
      cases h
      refine ⟨rfl, ?_⟩
      dsimp only
      split <;> rfl
    | none =>
      simp only [hv] at h
      split at h
      · cases h
      · cases h
        exact ⟨rfl, rfl⟩

theorem ignoredOperand_eq_remark? (find : String → Option Int)
    (hop : (∃ op, s.op = .register op) ∨ ∃ op, s.op = .device op) :
    s.ignoredOperand = (s.remark? find).toList := by
  unfold ignoredOperand remark?
  rcases hop with ⟨op, hop⟩ | ⟨op, hop⟩ <;> rw [hop] <;> cases s.operand <;> rfl

theorem remark?_of_directive {d : Directive} {find : String → Option Int}
    (hop : s.op = .directive d) : s.remark? find = none := by
  unfold remark?
  rw [hop]

/-- How a statement comes to its word and its warnings. -/
inductive Encodes (settings : Settings) (labels : LabelTable) (s : SourceStatement) :
    Word → List Warning → Prop
  | memory {op : MemoryOp} {address : Int} {warnings : List Warning} (hop : s.op = .memory op)
      (hreferred : s.referredAddress settings labels = .ok (address, warnings)) :
      Encodes settings labels s (op.word s.indirect (BitVec.ofInt 12 address)) warnings
  | register {op : RegisterOp} (hop : s.op = .register op) :
      Encodes settings labels s op.word s.ignoredOperand
  | device {op : DeviceOp} (hop : s.op = .device op) :
      Encodes settings labels s op.word s.ignoredOperand
  | decimal {value : Int} (hop : s.op = .directive .decimal)
      (hread : s.decimalOperand = .ok value) : Encodes settings labels s (Word.ofInt value) []
  | hexadecimal {value : Nat} (hop : s.op = .directive .hexadecimal)
      (hread : s.hexOperand = .ok value) : Encodes settings labels s (Word.ofInt value) []

theorem encodes_of_encode {word : Word} {warnings : List Warning}
    (h : s.encode settings labels = .ok (word, warnings)) :
    s.Encodes settings labels word warnings := by
  unfold encode at h
  cases hop : s.op with
  | memory op =>
    cases hr : s.referredAddress settings labels with
    | error d => simp only [hop, hr] at h; cases h
    | ok referred => simp only [hop, hr] at h; cases h; exact .memory hop hr
  | register op => simp only [hop] at h; cases h; exact .register hop
  | device op => simp only [hop] at h; cases h; exact .device hop
  | directive dir =>
    cases dir with
    | origin => simp only [hop] at h; cases h
    | finish => simp only [hop] at h; cases h
    | decimal =>
      cases hr : s.decimalOperand with
      | error f => simp only [hop, hr] at h; cases h
      | ok value => simp only [hop, hr] at h; cases h; exact .decimal hop hr
    | hexadecimal =>
      cases hr : s.hexOperand with
      | error d => simp only [hop, hr] at h; cases h
      | ok value => simp only [hop, hr] at h; cases h; exact .hexadecimal hop hr

/-- The warnings of an encoding are those that the statement and its table make for. -/
theorem warnings_of_encode {word : Word} {warnings : List Warning}
    (h : s.encode settings labels = .ok (word, warnings)) :
    warnings = (s.remark? labels.value?).toList := by
  cases encodes_of_encode h with
  | memory hop hreferred => exact (referredAddress_eq_ok hop hreferred).2
  | register hop => exact ignoredOperand_eq_remark? _ (Or.inl ⟨_, hop⟩)
  | device hop => exact ignoredOperand_eq_remark? _ (Or.inr ⟨_, hop⟩)
  | decimal hop hread | hexadecimal hop hread => rw [remark?_of_directive hop]; rfl

/-- The word of a statement that stores one, where `find` has the addresses of the labels. -/
def storedWord (find : String → Option Int) (s : SourceStatement) : Word :=
  match s.op with
  | .memory op => op.word s.indirect (BitVec.ofInt 12 (s.resolvedAddress find))
  | .register op => op.word
  | .device op => op.word
  | .directive .decimal => Word.ofInt (signedValue (s.operand.getD ""))
  | .directive .hexadecimal => Word.ofInt s.originValue
  | .directive _ => 0

theorem decimalOperand_eq_ok {value : Int} (h : s.decimalOperand = .ok value) :
    value = signedValue (s.operand.getD "") := by
  cases ho : s.operand with
  | none =>
    unfold decimalOperand at h
    rw [ho] at h
    cases h
  | some text =>
    rw [decimalOperand_of_some ho] at h
    split at h
    · split at h
      · cases h
      · split at h
        · cases h
          rfl
        · cases h
    · cases h

/-- Settings and the rest of a table have no part in the word of an encoding. -/
theorem word_of_encode {word : Word} {warnings : List Warning}
    (h : s.encode settings labels = .ok (word, warnings)) :
    word = s.storedWord labels.value? := by
  unfold storedWord
  cases encodes_of_encode h with
  | memory hop hreferred => rw [hop, (referredAddress_eq_ok hop hreferred).1]
  | register hop => rw [hop]
  | device hop => rw [hop]
  | decimal hop hread => rw [hop, decimalOperand_eq_ok hread]
  | hexadecimal hop hread => rw [hop, (hexOperand_eq_ok_iff.1 hread).2]

end SourceStatement

theorem MemoryOp.toNat_word (op : MemoryOp) (indirect : Bool) (address : AddressField) :
    (op.word indirect address).toNat = (op.field indirect).toNat * 4096 + address.toNat := by
  unfold MemoryOp.word
  rw [BitVec.toNat_append, ← Nat.shiftLeft_add_eq_or_of_lt address.isLt, Nat.shiftLeft_eq]

theorem MemoryOp.toNat_word_mod (op : MemoryOp) (indirect : Bool) (address : Nat) :
    (op.word indirect (BitVec.ofInt 12 address)).toNat % 4096 = address % 4096 := by
  rw [MemoryOp.toNat_word, BitVec.ofInt_natCast, BitVec.toNat_ofNat]
  omega

end TwoPass
