import TwoPass.Proofs.WordLayout

/-!
# Decoding

The three kinds of instructions share one space of words. The three bits after the first tell a
memory reference, since no memory operation has the code 7; any other instruction is a word of the
tables. So a word says which instruction it is of, and `Instruction.decode?` finds it from the
tables alone. Of the address it has the low bits only.
-/

namespace TwoPass

/-- An instruction, as far as its word tells it. -/
inductive Instruction where
  | memory (op : MemoryOp) (indirect : Bool) (address : AddressField)
  | register (op : RegisterOp)
  | device (op : DeviceOp)
  deriving DecidableEq, Repr

namespace Instruction

def op : Instruction → Operation
  | .memory op _ _ => .memory op
  | .register op => .register op
  | .device op => .device op

def word : Instruction → Word
  | .memory op indirect address => op.word indirect address
  | .register op => op.word
  | .device op => op.word

/-- The instruction that a word stands for: a memory reference if its code is one, else what the
tables of words have. -/
def decode? (w : Word) : Option Instruction :=
  match MemoryOp.all.find? (·.code == (w >>> 12).setWidth 3) with
  | some op => some (.memory op w.msb (w.setWidth 12))
  | none => ((RegisterOp.all.find? (·.word == w)).map .register).or
      ((DeviceOp.all.find? (·.word == w)).map .device)

end Instruction

namespace MemoryOp

variable (op : MemoryOp) (indirect : Bool) (address : AddressField)

theorem find?_code : all.find? (·.code == op.code) = some op := by
  cases op <;> rfl

theorem code_word : (op.word indirect address >>> 12).setWidth 3 = op.code := by
  have hcode := op.code.isLt
  have haddress := address.isLt
  apply BitVec.eq_of_toNat_eq
  rw [BitVec.toNat_setWidth, BitVec.toNat_ushiftRight, toNat_word, toNat_field]
  split <;> omega

theorem msb_word : (op.word indirect address).msb = indirect := by
  have hcode := op.code.isLt
  have haddress := address.isLt
  rw [BitVec.msb_eq_decide, toNat_word, toNat_field]
  cases indirect
  · rw [decide_eq_false_iff_not, if_neg Bool.false_ne_true]
    omega
  · rw [decide_eq_true_iff, if_pos rfl]
    omega

theorem address_word : (op.word indirect address).setWidth 12 = address := by
  have haddress := address.isLt
  apply BitVec.eq_of_toNat_eq
  rw [BitVec.toNat_setWidth, toNat_word]
  omega

end MemoryOp

namespace Instruction

/-- The word of an instruction is decoded to it. -/
theorem decode?_word (i : Instruction) : decode? i.word = some i := by
  cases i with
  | memory op indirect address =>
    simp only [decode?, word, op.code_word, op.find?_code, op.msb_word, op.address_word]
  | register op => cases op <;> rfl
  | device op => cases op <;> rfl

/-- No other word is decoded. -/
theorem eq_word_of_decode? {w : Word} {i : Instruction} (h : decode? w = some i) : w = i.word := by
  unfold decode? at h
  split at h
  · rename_i op hfound
    cases h
    have hfields := List.find?_some hfound
    have hcode := congrArg BitVec.toNat (beq_iff_eq.1 hfields)
    rw [BitVec.toNat_setWidth, BitVec.toNat_ushiftRight] at hcode
    have hw := w.isLt
    apply BitVec.eq_of_toNat_eq
    rw [word, MemoryOp.toNat_word, MemoryOp.toNat_field, hcode, BitVec.toNat_setWidth,
      BitVec.msb_eq_decide]
    simp only [decide_eq_true_eq]
    split <;> omega
  · rcases Option.or_eq_some_iff.1 h with h | ⟨-, h⟩
    · obtain ⟨op, hfound, rfl⟩ := Option.map_eq_some_iff.1 h
      have hword := List.find?_some hfound
      exact (beq_iff_eq.1 hword).symm
    · obtain ⟨op, hfound, rfl⟩ := Option.map_eq_some_iff.1 h
      have hword := List.find?_some hfound
      exact (beq_iff_eq.1 hword).symm

end Instruction

namespace SourceStatement

variable {settings settings' : Settings} {labels labels' : LabelTable} {s t : SourceStatement}
  {word : Word} {warnings warnings' : List Warning}

/-- The word of a statement that is no directive is that of an instruction with its operation. A
memory reference keeps its mark and the residue of the address that it refers to. -/
theorem exists_instruction_of_encode (hop : s.op.toClass ≠ .directive)
    (h : s.encode settings labels = .ok (word, warnings)) :
    ∃ i : Instruction, word = i.word ∧ i.op = s.op ∧
      ∀ op, s.op = .memory op → ∃ address field,
        s.referredAddress settings labels = .ok (address, warnings) ∧
        i = .memory op s.indirect field ∧ (field.toNat : Int) = address % 4096 := by
  cases encodes_of_encode h with
  | @memory op address _ hs hreferred =>
    refine ⟨.memory op s.indirect (BitVec.ofInt 12 address), rfl, hs.symm, ?_⟩
    intro op' hop'
    obtain rfl : op = op' := Operation.memory.inj (hs.symm.trans hop')
    exact ⟨address, _, hreferred, rfl, MemoryOp.toNat_addressField address⟩
  | register hs =>
    refine ⟨.register _, rfl, hs.symm, ?_⟩
    rw [hs]
    nofun
  | device hs =>
    refine ⟨.device _, rfl, hs.symm, ?_⟩
    rw [hs]
    nofun
  | decimal hs hread | hexadecimal hs hread =>
    rw [hs] at hop
    exact absurd rfl hop

/-- Two statements with one word are of the same instruction. -/
theorem same_of_encode (hs : s.op.toClass ≠ .directive) (ht : t.op.toClass ≠ .directive)
    (h : s.encode settings labels = .ok (word, warnings))
    (h' : t.encode settings' labels' = .ok (word, warnings')) :
    s.op = t.op ∧ ∀ op, s.op = .memory op → s.indirect = t.indirect ∧ ∃ address address',
      s.referredAddress settings labels = .ok (address, warnings) ∧
      t.referredAddress settings' labels' = .ok (address', warnings') ∧
      address % 4096 = address' % 4096 := by
  obtain ⟨i, hi, hiop, href⟩ := exists_instruction_of_encode hs h
  obtain ⟨j, hj, hjop, href'⟩ := exists_instruction_of_encode ht h'
  obtain rfl : i = j := by
    have hdecoded := i.decode?_word
    rw [← hi, hj, j.decode?_word] at hdecoded
    exact (Option.some.inj hdecoded).symm
  refine ⟨hiop.symm.trans hjop, ?_⟩
  intro op hop
  obtain ⟨address, field, haddress, rfl, hfield⟩ := href op hop
  obtain ⟨address', field', haddress', hsame, hfield'⟩ :=
    href' op (hjop.symm.trans (hiop.trans hop))
  obtain ⟨-, hmark, hfields⟩ := Instruction.memory.inj hsame
  rw [← hfields] at hfield'
  exact ⟨hmark, address, address', haddress, haddress', hfield.symm.trans hfield'⟩

/-- Words are uniquely decodable. A word is decoded exactly if it is that of an instruction, and
what it is decoded to has the operation of every statement that it encodes and, for a memory
reference, its mark and the residue of its address. So statements with the same word, over whatever
tables and settings, have the same operation, mark and residue, and no memory reference has the word
of a register or device operation. -/
theorem words_uniquely_decodable :
    (∀ (w : Word) (i : Instruction), Instruction.decode? w = some i ↔ w = i.word) ∧
    (∀ (s : SourceStatement) (labels : LabelTable) (settings : Settings) (word : Word)
        (warnings : List Warning), s.op.toClass ≠ .directive →
      s.encode settings labels = .ok (word, warnings) →
      ∃ i, Instruction.decode? word = some i ∧ i.op = s.op ∧
        ∀ op, s.op = .memory op → ∃ address field,
          s.referredAddress settings labels = .ok (address, warnings) ∧
          i = .memory op s.indirect field ∧ (field.toNat : Int) = address % 4096) ∧
    (∀ (s t : SourceStatement) (labels labels' : LabelTable) (settings settings' : Settings)
        (word : Word) (warnings warnings' : List Warning),
      s.op.toClass ≠ .directive → t.op.toClass ≠ .directive →
      s.encode settings labels = .ok (word, warnings) →
      t.encode settings' labels' = .ok (word, warnings') →
      s.op = t.op ∧ ∀ op, s.op = .memory op → s.indirect = t.indirect ∧ ∃ address address',
        s.referredAddress settings labels = .ok (address, warnings) ∧
        t.referredAddress settings' labels' = .ok (address', warnings') ∧
        address % 4096 = address' % 4096) ∧
    ∀ (s t : SourceStatement) (labels labels' : LabelTable) (settings settings' : Settings)
        (word word' : Word) (warnings warnings' : List Warning),
      s.op.toClass = .memory → t.op.toClass = .register ∨ t.op.toClass = .device →
      s.encode settings labels = .ok (word, warnings) →
      t.encode settings' labels' = .ok (word', warnings') → word ≠ word' := by
  refine ⟨?_, ?_, ?_, ?_⟩
  · intro w i
    refine ⟨Instruction.eq_word_of_decode?, ?_⟩
    rintro rfl
    exact i.decode?_word
  · intro s labels settings word warnings hop h
    obtain ⟨i, rfl, hi⟩ := exists_instruction_of_encode hop h
    exact ⟨i, i.decode?_word, hi⟩
  · intro s t labels labels' settings settings' word warnings warnings' hs ht
    exact same_of_encode hs ht
  · rintro s t labels labels' settings settings' word word' warnings warnings' hs ht h h' rfl
    have hsdir : s.op.toClass ≠ .directive := by
      rw [hs]
      nofun
    have htdir : t.op.toClass ≠ .directive := by
      rcases ht with ht | ht <;> rw [ht] <;> nofun
    rw [← (same_of_encode hsdir htdir h h').1, hs] at ht
    rcases ht with ht | ht <;> cases ht

/-- A reference to a label at a small address. -/
def nearReference : SourceStatement :=
  ⟨⟨none, .memory .lda, some "NEAR", true⟩, {}⟩

/-- One to a label with an address far beyond the field. -/
def farReference : SourceStatement :=
  ⟨⟨some "L", .memory .lda, some "HIGH", true⟩, {}⟩

theorem words_uniquely_decodable_of_farReference :
    (∃ address field, Instruction.decode? 0xA005 = some (.memory .lda true field) ∧
      farReference.resolvedAddress extremeLabels.value? = address ∧
      (field.toNat : Int) = address % 4096) ∧
    nearReference.indirect = farReference.indirect ∧
    (5 : Int) % 4096 = (2 ^ 70 + 5) % 4096 ∧
    (0xA005 : Word) ≠ DeviceOp.inp.word := by
  have hnear : nearReference.encode {} (.ofPairs [("NEAR", 5)]) = .ok (0xA005, []) := rfl
  obtain ⟨warnings, hfar⟩ : ∃ warnings, farReference.encode { strictLabels := true } extremeLabels =
      .ok (0xA005, warnings) := ⟨_, rfl⟩
  have hinput : (⟨⟨none, .device .inp, none, false⟩, {}⟩ : SourceStatement).encode {} .empty =
      .ok (DeviceOp.inp.word, []) := rfl
  obtain ⟨-, hencoded, hsame, hapart⟩ := words_uniquely_decodable
  obtain ⟨-, hboth⟩ := hsame _ _ _ _ _ _ _ _ _ (by decide) (by decide) hnear hfar
  obtain ⟨hmark, address, address', haddress, haddress', hresidue⟩ := hboth .lda rfl
  obtain ⟨i, hdecoded, -, hreference⟩ := hencoded _ _ _ _ _ (by decide) hfar
  obtain ⟨address'', field, haddress'', rfl, hfield⟩ := hreference .lda rfl
  cases haddress
  cases haddress'
  cases haddress''
  exact ⟨⟨_, field, hdecoded, rfl, hfield⟩, hmark, hresidue,
    hapart _ _ _ _ _ _ _ _ _ _ rfl (Or.inr rfl) hnear hinput⟩

end SourceStatement

end TwoPass
