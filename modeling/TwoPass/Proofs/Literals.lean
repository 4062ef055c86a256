import TwoPass.Proofs.Encodings
import TwoPass.Proofs.Positional

/-!
# Literals

The readers of literals accept the numerals of their notation and nothing else, and what they read
is the number that the numeral stands for. A missing operand is a malformed statement, and any other
operand that is not a numeral in range is a bad literal. Only the digits of a decimal numeral are
limited in number.
-/

namespace TwoPass

namespace Numeral

/-- Whether a text is the decimal numeral of an integer: digits, with at most one sign before
them. -/
inductive DenotesSigned : List Char → Int → Prop
  | unsigned {ds : List Char} {n : Nat} : Denotes 10 ds n → DenotesSigned ds n
  | plus {ds : List Char} {n : Nat} : Denotes 10 ds n → DenotesSigned ('+' :: ds) n
  | minus {ds : List Char} {n : Nat} : Denotes 10 ds n → DenotesSigned ('-' :: ds) (-n)

theorem isUpper_iff_toNat {c : Char} : c.isUpper = true ↔ 65 ≤ c.toNat ∧ c.toNat ≤ 90 := by
  show decide (c.val ≥ 65 ∧ c.val ≤ 90) = true ↔ _
  rw [decide_eq_true_iff, ge_iff_le, UInt32.le_iff_toNat_le, UInt32.le_iff_toNat_le]
  rfl

theorem isLower_iff_toNat {c : Char} : c.isLower = true ↔ 97 ≤ c.toNat ∧ c.toNat ≤ 122 := by
  show (decide (c.val ≥ 97) && decide (c.val ≤ 122)) = true ↔ _
  rw [Bool.and_eq_true, decide_eq_true_iff, decide_eq_true_iff, ge_iff_le, UInt32.le_iff_toNat_le,
    UInt32.le_iff_toNat_le]
  rfl

theorem not_isDigit_of_isAlpha {c : Char} (h : c.isAlpha = true) : ¬ c.isDigit = true := by
  simp only [Char.isDigit_iff_toNat, Char.reduceToNat]
  rcases Bool.or_eq_true_iff.1 h with h | h
  · rw [isUpper_iff_toNat] at h
    omega
  · rw [isLower_iff_toNat] at h
    omega

theorem digitValue_cases {c : Char} (h : isHexDigit c = true) :
    c.isDigit = true ∧ digitValue c < 10 ∨
      ¬ c.isDigit = true ∧ 10 ≤ digitValue c ∧ digitValue c < 16 := by
  have hzero : '0'.toNat = 48 := rfl
  have hnine : '9'.toNat = 57 := rfl
  have hupper : 'A'.toNat = 65 := rfl
  have hlower : 'a'.toNat = 97 := rfl
  unfold digitValue
  simp only [isHexDigit_iff, Char.isDigit_iff_toNat, isUpper_iff_toNat] at h ⊢
  split_ifs <;> omega

theorem digitValue_lt_of_isHexDigit {c : Char} (h : isHexDigit c = true) : digitValue c < 16 := by
  rcases digitValue_cases h with ⟨-, hlt⟩ | ⟨-, -, hlt⟩
  · omega
  · exact hlt

theorem isDigit_iff_digitValue {c : Char} :
    c.isDigit = true ↔ isHexDigit c = true ∧ digitValue c < 10 := by
  constructor
  · intro hc
    have hhex : isHexDigit c = true := by
      rw [isHexDigit_iff]
      exact Or.inl (Char.isDigit_iff_toNat.1 hc)
    rcases digitValue_cases hhex with ⟨-, hlt⟩ | ⟨hnot, -⟩
    · exact ⟨hhex, hlt⟩
    · exact absurd hc hnot
  · rintro ⟨hhex, hlt⟩
    rcases digitValue_cases hhex with ⟨hc, -⟩ | ⟨-, hle, -⟩
    · exact hc
    · omega

section Readers

variable {ds : List Char}

theorem denotes_sixteen_iff {n : Nat} :
    Denotes 16 ds n ↔ isHexNumeral ds = true ∧ value 16 ds = n := by
  have hdigits : ds.all isHexDigit = true ↔
      ∀ c ∈ ds, isHexDigit c = true ∧ digitValue c < 16 := by
    rw [List.all_eq_true]
    exact forall₂_congr fun c _ => ⟨fun h => ⟨h, digitValue_lt_of_isHexDigit h⟩, And.left⟩
  rw [denotes_iff (by decide), isHexNumeral, Bool.and_eq_true, hdigits, and_assoc]
  simp

theorem denotes_ten_iff {n : Nat} :
    Denotes 10 ds n ↔ isDecimalNumeral ds = true ∧ value 10 ds = n := by
  have hdigits : ds.all Char.isDigit = true ↔
      ∀ c ∈ ds, isHexDigit c = true ∧ digitValue c < 10 := by
    rw [List.all_eq_true]
    exact forall₂_congr fun c _ => isDigit_iff_digitValue
  rw [denotes_iff (by decide), isDecimalNumeral, Bool.and_eq_true, hdigits, and_assoc]
  simp

theorem isDigit_of_mem (h : isDecimalNumeral ds = true) {c : Char} (hc : c ∈ ds) :
    c.isDigit = true :=
  List.all_eq_true.1 (Bool.and_eq_true_iff.1 h).2 c hc

theorem splitSign_of_isDecimalNumeral (h : isDecimalNumeral ds = true) :
    splitSign ds = (false, ds) := by
  unfold splitSign
  split
  · exact absurd (isDigit_of_mem h List.mem_cons_self) (by decide)
  · exact absurd (isDigit_of_mem h List.mem_cons_self) (by decide)
  · rfl

/-- The digits after the sign are all the digits of a numeral. -/
theorem length_splitSign (h : isDecimalNumeral (splitSign ds).2 = true) :
    (splitSign ds).2.length = ds.countP Char.isDigit := by
  have hcount : (splitSign ds).2.countP Char.isDigit = (splitSign ds).2.length :=
    List.countP_eq_length.2 fun c hc => isDigit_of_mem h hc
  rw [← hcount]
  unfold splitSign
  split
  · rw [List.countP_cons_of_neg (by decide)]
  · rw [List.countP_cons_of_neg (by decide)]
  · rfl

theorem denotesSigned_iff {text : String} {n : Int} :
    DenotesSigned text.toList n ↔
      isDecimalNumeral (splitSign text.toList).2 = true ∧ signedValue text = n := by
  unfold signedValue
  constructor
  · intro h
    generalize text.toList = cs at h ⊢
    cases h with
    | unsigned h =>
      obtain ⟨hds, rfl⟩ := denotes_ten_iff.1 h
      rw [splitSign_of_isDecimalNumeral hds]
      exact ⟨hds, rfl⟩
    | plus h =>
      obtain ⟨hds, rfl⟩ := denotes_ten_iff.1 h
      exact ⟨hds, rfl⟩
    | minus h =>
      obtain ⟨hds, rfl⟩ := denotes_ten_iff.1 h
      exact ⟨hds, rfl⟩
  · rintro ⟨hds, rfl⟩
    generalize text.toList = cs at hds ⊢
    unfold splitSign at hds ⊢
    split at hds
    · exact .minus (denotes_ten_iff.2 ⟨hds, rfl⟩)
    · exact .plus (denotes_ten_iff.2 ⟨hds, rfl⟩)
    · exact .unsigned (denotes_ten_iff.2 ⟨hds, rfl⟩)

end Readers

section Printed

/-- Digits that differ from others only in the case of letters. -/
def SameButCase (ds ds' : List Char) : Prop :=
  List.Forall₂ (fun c c' => c' = c ∨ c' = c.toLower) ds ds'

theorem IsDigit.of_case {d : Nat} {c c' : Char} (h : IsDigit 16 d c)
    (hc : c' = c ∨ c' = c.toLower) : IsDigit 16 d c' := by
  rcases hc with rfl | rfl
  · exact h
  · obtain ⟨hd, hdigit⟩ := h
    refine ⟨hd, Or.inr ?_⟩
    interval_cases d <;> rcases hdigit with hdigit | hdigit <;> cases hdigit <;> rfl

theorem Denotes.of_sameButCase {ds ds' : List Char} {n : Nat} (h : Denotes 16 ds n)
    (hcase : SameButCase ds ds') : Denotes 16 ds' n := by
  obtain ⟨values, hdigits, hne, hvalue⟩ := h
  refine ⟨values, ?_, hne, hvalue⟩
  clear hne hvalue
  induction hdigits generalizing ds' with
  | nil =>
    cases hcase
    exact .nil
  | cons hd _ ih =>
    cases hcase with
    | cons hc hrest => exact .cons (hd.of_case hc) (ih hrest)

theorem denotesSigned_padded (width : Nat) (n : Int) :
    DenotesSigned (padded 10 width n).toList n := by
  by_cases hn : n < 0
  · have habs : n = -(n.natAbs : Int) := by omega
    have hdigits := denotes_padded (by decide : 1 < 10) (by decide) (width - 1) n.natAbs
    rw [toList_padded] at hdigits
    rw [padded, if_pos hn, String.toList_ofList]
    have hsigned := DenotesSigned.minus hdigits
    rwa [← habs] at hsigned
  · obtain ⟨m, rfl⟩ := Int.eq_ofNat_of_zero_le (Int.not_lt.1 hn)
    exact .unsigned (denotes_padded (by decide) (by decide) width m)

end Printed

/-- A character that is in no numeral: one beyond ASCII, an underscore, the letter of a base, or a
blank. -/
def IsForeign (c : Char) : Prop :=
  127 < c.toNat ∨ c = '_' ∨ c = 'x' ∨ c = 'X' ∨ Text.isBlank c = true

instance (c : Char) : Decidable (IsForeign c) :=
  inferInstanceAs (Decidable (_ ∨ _))

theorem IsForeign.not_isHexDigit {c : Char} (h : IsForeign c) : ¬ isHexDigit c = true := by
  rw [isHexDigit_iff]
  rcases h with h | rfl | rfl | rfl | h
  · omega
  · decide
  · decide
  · decide
  · unfold Text.isBlank at h
    simp only [Bool.or_eq_true, Bool.and_eq_true, decide_eq_true_eq, beq_iff_eq] at h
    omega

theorem IsForeign.not_isDigit {c : Char} (h : IsForeign c) : ¬ c.isDigit = true :=
  fun hc => h.not_isHexDigit (isDigit_iff_digitValue.1 hc).1

end Numeral

/-- What a reader of literals gives for an operand: the number that it stands for, if it stands for
one; for a missing operand the problem of a malformed statement, and for any other that of a bad
literal. -/
structure ReadsExactly {α : Type} (operand : Option String) (StandsFor : String → α → Prop)
    (result : Except Fault α) : Prop where
  ok_iff : ∀ n, result = .ok n ↔ ∃ text, operand = some text ∧ StandsFor text n
  malformed_iff :
    (∃ d, result = .error (.diagnostic d) ∧ d.problem.kind = .malformed) ↔ operand = none
  badLiteral_iff :
    (∃ d, result = .error (.diagnostic d) ∧ d.problem.kind = .badLiteral) ↔
      ∃ text, operand = some text ∧ ∀ n, ¬ StandsFor text n

namespace ReadsExactly

variable {α : Type} {StandsFor : String → α → Prop} {result : Except Fault α}

theorem of_none {d : Diagnostic} (hkind : d.problem.kind = .malformed)
    (h : result = .error (.diagnostic d)) : ReadsExactly none StandsFor result := by
  subst h
  refine ⟨?_, iff_of_true ⟨d, rfl, hkind⟩ rfl, ?_⟩
  · simp
  · simp [hkind]

/-- For an operand that is there, it is enough to know when it is read and that nothing else than a
bad literal is reported. -/
theorem of_some {text : String} (hok : ∀ n, result = .ok n ↔ StandsFor text n)
    (hbad : ∀ f, result = .error f → ∃ d, f = .diagnostic d ∧ d.problem.kind = .badLiteral) :
    ReadsExactly (some text) StandsFor result := by
  refine ⟨?_, ?_, ?_⟩
  · simp [hok]
  · refine iff_of_false ?_ nofun
    rintro ⟨d, hd, hkind⟩
    obtain ⟨d', heq, hkind'⟩ := hbad _ hd
    cases heq
    rw [hkind] at hkind'
    cases hkind'
  · cases hresult : result with
    | ok n =>
      refine iff_of_false (by simp) ?_
      rintro ⟨text', htext, hnot⟩
      cases htext
      exact hnot n ((hok n).1 hresult)
    | error f =>
      obtain ⟨d, rfl, hkind⟩ := hbad f hresult
      refine iff_of_true ⟨d, rfl, hkind⟩ ⟨text, rfl, fun n hn => ?_⟩
      rw [(hok n).2 hn] at hresult
      cases hresult

/-- A reader that asks first for a numeral and then for its range. -/
theorem of_checks {text : String} {numeral inRange : Prop} [Decidable numeral] [Decidable inRange]
    {value : α} {d d' : Diagnostic} (hd : d.problem.kind = .badLiteral)
    (hd' : d'.problem.kind = .badLiteral)
    (hstands : ∀ n, StandsFor text n ↔ numeral ∧ inRange ∧ value = n) :
    ReadsExactly (some text) StandsFor
      (if numeral then if inRange then .ok value else .error (.diagnostic d)
        else .error (.diagnostic d')) := by
  apply of_some
  · intro n
    rw [hstands]
    split_ifs with hnumeral hrange
    · simp [hnumeral, hrange]
    · simp [hrange]
    · simp [hnumeral]
  · intro f hf
    split_ifs at hf
    · cases hf
      exact ⟨d, rfl, hd⟩
    · cases hf
      exact ⟨d', rfl, hd'⟩

end ReadsExactly

namespace SourceStatement

variable {s : SourceStatement} {text : String}

theorem hexOperand_of_some (h : s.operand = some text) :
    s.hexOperand =
      if isHexNumeral text.toList then
        if Numeral.value 16 text.toList ≤ wordMax then .ok (Numeral.value 16 text.toList)
        else .error (s.badLiteral text .aboveWord)
      else .error (s.badLiteral text .notHexadecimal) := by
  unfold hexOperand
  rw [h]

theorem hexOperand_readsExactly (s : SourceStatement) :
    ReadsExactly s.operand (fun text n => Numeral.Denotes 16 text.toList n ∧ n ≤ 0xFFFF)
      (s.hexOperand.mapError .diagnostic) := by
  cases hop : s.operand with
  | none =>
    refine ReadsExactly.of_none (d := s.problem (.operandMissing s.op)) rfl ?_
    unfold hexOperand
    rw [hop]
    rfl
  | some text =>
    have hmax : wordMax = 0xFFFF := rfl
    rw [hexOperand_of_some hop, apply_ite (Except.mapError Fault.diagnostic),
      apply_ite (Except.mapError Fault.diagnostic), hmax]
    refine ReadsExactly.of_checks rfl rfl fun n => ?_
    rw [Numeral.denotes_sixteen_iff]
    constructor
    · rintro ⟨⟨hnumeral, rfl⟩, hle⟩
      exact ⟨hnumeral, hle, rfl⟩
    · rintro ⟨hnumeral, hle, rfl⟩
      exact ⟨⟨hnumeral, rfl⟩, hle⟩

/-- Beside its numerals the reader of decimal words minds only how many digits there are. -/
theorem decimalOperand_readsExactly
    (hcount : ∀ text, s.operand = some text → text.toList.countP Char.isDigit ≤ maxDigits) :
    ReadsExactly s.operand
      (fun text n => Numeral.DenotesSigned text.toList n ∧ -32768 ≤ n ∧ n ≤ 65535)
      s.decimalOperand := by
  cases hop : s.operand with
  | none =>
    refine ReadsExactly.of_none (d := s.problem (.operandMissing s.op)) rfl ?_
    unfold decimalOperand
    rw [hop]
  | some text =>
    have hresult : s.decimalOperand =
        if isDecimalNumeral (splitSign text.toList).2 = true then
          if -32768 ≤ signedValue text ∧ signedValue text ≤ 65535 then .ok (signedValue text)
          else .error (.diagnostic (s.badLiteral text .outsideRange))
        else .error (.diagnostic (s.badLiteral text .notDecimal)) := by
      rw [decimalOperand_of_some hop]
      refine ite_congr rfl (fun hnumeral => ?_) fun _ => rfl
      have hfew : ¬ maxDigits < (splitSign text.toList).2.length := by
        rw [Numeral.length_splitSign hnumeral]
        exact Nat.not_lt.2 (hcount text hop)
      rw [if_neg hfew]
      rfl
    rw [hresult]
    refine ReadsExactly.of_checks rfl rfl fun n => ?_
    rw [Numeral.denotesSigned_iff]
    constructor
    · rintro ⟨⟨hnumeral, rfl⟩, hrange⟩
      exact ⟨hnumeral, hrange, rfl⟩
    · rintro ⟨hnumeral, hrange, rfl⟩
      exact ⟨⟨hnumeral, rfl⟩, hrange⟩

theorem hexOperand_of_foreign (h : s.operand = some text) {c : Char} (hc : c ∈ text.toList)
    (hnot : ¬ Numeral.isHexDigit c = true) :
    s.hexOperand = .error (s.badLiteral text .notHexadecimal) := by
  rw [hexOperand_of_some h, if_neg]
  intro hnumeral
  exact hnot (List.all_eq_true.1 (Bool.and_eq_true_iff.1 hnumeral).2 c hc)

/-- A character that is no digit may stand only at the front, and only if it is a sign. -/
theorem decimalOperand_of_foreign (h : s.operand = some text) {c : Char}
    (hc : c ∈ text.toList ∧ c ≠ '+' ∧ c ≠ '-' ∨ c ∈ text.toList.tail)
    (hnot : ¬ c.isDigit = true) :
    s.decimalOperand = .error (.diagnostic (s.badLiteral text .notDecimal)) := by
  have hrest : c ∈ (splitSign text.toList).2 := by
    unfold splitSign
    split
    · rename_i ds htext
      rw [htext, List.mem_cons, List.tail_cons] at hc
      tauto
    · rename_i ds htext
      rw [htext, List.mem_cons, List.tail_cons] at hc
      tauto
    · exact hc.elim (fun hc => hc.1) List.mem_of_mem_tail
  rw [decimalOperand_of_some h, if_neg]
  intro hnumeral
  exact hnot (Numeral.isDigit_of_mem hnumeral hrest)

/-- The readers of literals accept exactly their numerals and compute what these stand for: at least
one hexadecimal digit, in either case and with any zeros before, up to the largest word; or at least
one decimal digit after at most one sign, in the range of a signed or an unsigned word, as long as
the digits are not too many. A printed number is read back, however many zeros stand before it.
Characters beyond ASCII, underscores, the letters of a base, signs anywhere but at the front of a
decimal numeral, and blanks are refused wherever they stand. -/
theorem literal_readers_exact (s : SourceStatement) :
    ReadsExactly s.operand (fun text n => Numeral.Denotes 16 text.toList n ∧ n ≤ 0xFFFF)
      (s.hexOperand.mapError .diagnostic) ∧
    ((∀ text, s.operand = some text → text.toList.countP Char.isDigit ≤ 4300) →
      ReadsExactly s.operand
        (fun text n => Numeral.DenotesSigned text.toList n ∧ -32768 ≤ n ∧ n ≤ 65535)
        s.decimalOperand) ∧
    (∀ (n width : Nat) (text : String), n ≤ 0xFFFF →
      Numeral.SameButCase (Numeral.hex width n).toList text.toList → s.operand = some text →
      s.hexOperand = .ok n) ∧
    (∀ (n : Int) (width : Nat), -32768 ≤ n → n ≤ 65535 →
      (Numeral.padded 10 width n).toList.countP Char.isDigit ≤ 4300 →
      s.operand = some (Numeral.padded 10 width n) → s.decimalOperand = .ok n) ∧
    (∀ text, s.operand = some text →
      (∃ c ∈ text.toList, Numeral.IsForeign c ∨ c = '+' ∨ c = '-') →
      s.hexOperand = .error (s.badLiteral text .notHexadecimal)) ∧
    ∀ text, s.operand = some text →
      ((∃ c ∈ text.toList, Numeral.IsForeign c ∨ c.isAlpha = true) ∨
        ∃ c ∈ text.toList.tail, c = '+' ∨ c = '-') →
      s.decimalOperand = .error (.diagnostic (s.badLiteral text .notDecimal)) := by
  refine ⟨s.hexOperand_readsExactly, decimalOperand_readsExactly, ?_, ?_, ?_, ?_⟩
  · intro n width text hn hcase hop
    have hdenotes := (Numeral.denotes_padded (by decide) (by decide) width n).of_sameButCase hcase
    obtain ⟨hnumeral, rfl⟩ := Numeral.denotes_sixteen_iff.1 hdenotes
    have hle : Numeral.value 16 text.toList ≤ wordMax := hn
    rw [hexOperand_of_some hop, if_pos hnumeral, if_pos hle]
  · intro n width hlo hhi hcount hop
    have hreads := decimalOperand_readsExactly (s := s) fun text htext => by
      rw [hop] at htext
      cases htext
      exact hcount
    exact (hreads.ok_iff n).2 ⟨_, hop, Numeral.denotesSigned_padded width n, hlo, hhi⟩
  · rintro text hop ⟨c, hc, hforeign⟩
    refine hexOperand_of_foreign hop hc ?_
    rcases hforeign with hforeign | rfl | rfl
    · exact hforeign.not_isHexDigit
    · decide
    · decide
  · rintro text hop (⟨c, hc, hforeign⟩ | ⟨c, hc, hsign⟩)
    · have hletter : c ≠ '+' ∧ c ≠ '-' ∧ ¬ c.isDigit = true := by
        refine ⟨?_, ?_, ?_⟩
        · rintro rfl
          exact absurd hforeign (by decide)
        · rintro rfl
          exact absurd hforeign (by decide)
        · exact hforeign.elim Numeral.IsForeign.not_isDigit Numeral.not_isDigit_of_isAlpha
      exact decimalOperand_of_foreign hop (Or.inl ⟨hc, hletter.1, hletter.2.1⟩) hletter.2.2
    · refine decimalOperand_of_foreign hop (Or.inr hc) ?_
      rcases hsign with rfl | rfl <;> decide

theorem literal_readers_exact_of_operands :
    (⟨⟨none, .directive .hexadecimal, some "000fFFf", false⟩, {}⟩ : SourceStatement).hexOperand =
      .ok 0xFFFF ∧
    (∃ d, (⟨⟨none, .org, none, false⟩, {}⟩ : SourceStatement).hexOperand.mapError
      Fault.diagnostic = .error (.diagnostic d) ∧ d.problem.kind = .malformed) ∧
    (⟨⟨none, .directive .hexadecimal, some "0x1F", false⟩, {}⟩ : SourceStatement).hexOperand =
      .error ⟨.badLiteral "HEX" "0x1F" .notHexadecimal, {}⟩ ∧
    (⟨⟨none, .directive .decimal, some "-0032768", false⟩, {}⟩ : SourceStatement).decimalOperand =
      .ok (-32768) ∧
    (∃ d, (⟨⟨none, .directive .decimal, some "65536", false⟩, {}⟩ :
      SourceStatement).decimalOperand = .error (.diagnostic d) ∧ d.problem.kind = .badLiteral) ∧
    (⟨⟨none, .directive .decimal, some "7-", false⟩, {}⟩ : SourceStatement).decimalOperand =
      .error (.diagnostic ⟨.badLiteral "DEC" "7-" .notDecimal, {}⟩) ∧
    (⟨⟨none, .directive .decimal, some "٣", false⟩, {}⟩ : SourceStatement).decimalOperand =
      .error (.diagnostic ⟨.badLiteral "DEC" "٣" .notDecimal, {}⟩) := by
  refine ⟨?_, ?_, ?_, ?_, ?_, ?_, ?_⟩
  · refine (literal_readers_exact _).2.2.1 0xFFFF 7 "000fFFf" (by decide) ?_ rfl
    show List.Forall₂ _ ['0', '0', '0', 'F', 'F', 'F', 'F'] ['0', '0', '0', 'f', 'F', 'F', 'f']
    simp
  · exact (literal_readers_exact _).1.malformed_iff.2 rfl
  · exact (literal_readers_exact _).2.2.2.2.1 "0x1F" rfl ⟨'x', by decide, by decide⟩
  · exact (literal_readers_exact _).2.2.2.1 (-32768) 8 (by decide) (by decide) (by decide) rfl
  · have hreads := (literal_readers_exact
      ⟨⟨none, .directive .decimal, some "65536", false⟩, {}⟩).2.1 <| by
        rintro text htext
        cases htext
        decide
    refine hreads.badLiteral_iff.2 ⟨"65536", rfl, ?_⟩
    rintro n ⟨hn, -, hle⟩
    have hvalue : signedValue "65536" = 65536 := by decide
    have hn := (Numeral.denotesSigned_iff.1 hn).2
    omega
  · exact (literal_readers_exact _).2.2.2.2.2 "7-" rfl (Or.inr ⟨'-', by decide, by decide⟩)
  · exact (literal_readers_exact _).2.2.2.2.2 "٣" rfl (Or.inl ⟨'٣', by decide, by decide⟩)

end SourceStatement

end TwoPass
