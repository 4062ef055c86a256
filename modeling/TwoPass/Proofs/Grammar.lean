import TwoPass.Proofs.Faults

/-!
# The grammar of a line

A line is read by its words alone, wherever they come from. `Statement.Spelled` lists the forms that
the words of a statement have. A line of none of these forms is refused for the number of its words,
if no line of so many words is a statement or if it has four, and else for its mnemonic.
-/

namespace TwoPass

/-- The words of a line: what stands between the blanks of a text, or the texts of fields. -/
def RawLine.words : RawLine → List String
  | .text line => ((line.toList.splitOnP Text.isBlank).filter (!·.isEmpty)).map String.ofList
  | .fields fs => fs.map Field.content

/-- The words of statements. The mark of an indirect address stands only after the operand of a
memory reference, where it is no operand itself. -/
inductive Statement.Spelled : List String → Statement → Prop
  | bare (op : Operation) : Spelled [op.mnemonic] ⟨none, op, none, false⟩
  | operand (op : Operation) (operand : String) :
      Spelled [op.mnemonic, operand] ⟨none, op, some operand, false⟩
  | indirect (op : MemoryOp) (operand : String) :
      Spelled [op.mnemonic, operand, indirectMark] ⟨none, .memory op, some operand, true⟩
  | labelled (label : String) (op : Operation) (operand : String) :
      (∀ m : MemoryOp, label = m.mnemonic → operand ≠ indirectMark) →
      Spelled [label, op.mnemonic, operand] ⟨some label, op, some operand, false⟩
  | labelledIndirect (label : String) (op : MemoryOp) (operand : String) :
      Spelled [label, op.mnemonic, operand, indirectMark] ⟨some label, .memory op, some operand, true⟩

theorem Operation.ofMnemonic?_eq_some_iff {text : String} {op : Operation} :
    ofMnemonic? text = some op ↔ text = op.mnemonic := by
  constructor
  · intro h
    have htext := List.find?_some h
    exact (beq_iff_eq.1 htext).symm
  · rintro rfl
    exact ofMnemonic?_mnemonic op

theorem MemoryOp.ofMnemonic?_eq_some_iff {text : String} {op : MemoryOp} :
    ofMnemonic? text = some op ↔ text = op.mnemonic := by
  constructor
  · intro h
    exact Operation.ofMnemonic?_eq_some_iff.1 (Operation.ofMnemonic?_of_memory h)
  · rintro rfl
    cases op <;> decide

theorem Token.map_snd_wordsFrom (column : Nat) {word : List Char} (rest : List Char)
    (hw : ∀ c ∈ word, Text.isBlank c = false) :
    (wordsFrom column word rest).map (·.2) =
      ((word.reverse ++ rest).splitOnP Text.isBlank).filter (!·.isEmpty) := by
  induction rest generalizing column word with
  | nil =>
    have hread : ∀ c ∈ word.reverse, Text.isBlank c = false := by simpa using hw
    rw [List.append_nil, List.splitOnP_eq_singleton hread, wordsFrom]
    cases word with
    | nil => rfl
    | cons c word => simp
  | cons c rest ih =>
    rw [wordsFrom]
    by_cases hc : Text.isBlank c = true
    · -- a blank ends the word that was read, which is left out if it is empty
      have hread : ∀ c ∈ word.reverse, Text.isBlank c = false := by simpa using hw
      have hnext := @ih (column + 1) [] (List.forall_mem_nil _)
      rw [if_pos hc, List.splitOnP_append_cons_of_forall_mem hread c hc]
      cases word with
      | nil => simpa using hnext
      | cons d word => simpa using hnext
    · have hmore : ∀ d ∈ c :: word, Text.isBlank d = false :=
        List.forall_mem_cons.2 ⟨Bool.not_eq_true _ ▸ hc, hw⟩
      rw [if_neg hc, ih (column + 1) hmore, List.reverse_cons, List.append_assoc,
        List.singleton_append]

theorem RawLine.map_text_tokens (line : RawLine) (number : Option Int) (file : Option String) :
    (line.tokens number file).map (·.text) = line.words := by
  cases line with
  | text line =>
    have hwords := @Token.map_snd_wordsFrom 1 [] line.toList (List.forall_mem_nil _)
    rw [List.reverse_nil, List.nil_append] at hwords
    show ((Token.wordsFrom 1 [] line.toList).map _).map _ = _
    rw [words, ← hwords, List.map_map, List.map_map]
    rfl
  | fields fs =>
    show (fs.map (Field.toToken number file)).map _ = fs.map Field.content
    rw [List.map_map]
    apply List.map_congr_left
    intro f _
    cases f <;> rfl

/-- Whether a word and a later one have the places of a memory reference and of the mark. -/
theorem marked_iff {text mark : String} :
    ((MemoryOp.ofMnemonic? text).isSome && mark == indirectMark) = true ↔
      (∃ op : MemoryOp, text = op.mnemonic) ∧ mark = indirectMark := by
  rw [Bool.and_eq_true_iff, beq_iff_eq, Option.isSome_iff_exists]
  simp only [MemoryOp.ofMnemonic?_eq_some_iff]

section Tokens

variable {tokens : List Token} {shape : Shape} {op : Operation}

/-- A shape whose mnemonic is known spells a statement. -/
theorem Shape.spelled (h : ofTokens? tokens = some shape)
    (hop : Operation.ofMnemonic? shape.op.text = some op) :
    Statement.Spelled (tokens.map (·.text))
      ⟨shape.label.map (·.text), op, shape.operand.map (·.text), shape.indirect⟩ := by
  rw [Operation.ofMnemonic?_eq_some_iff] at hop
  unfold ofTokens? at h
  split at h
  · cases h
    rw [List.map_singleton, hop]
    exact .bare op
  · cases h
    rw [List.map_cons, List.map_singleton, hop]
    exact .operand op _
  · split at h
    · rename_i hmark
      obtain ⟨⟨m, hm⟩, hmark⟩ := marked_iff.1 hmark
      cases h
      obtain rfl : op = .memory m := Operation.mnemonic_injective (hop.symm.trans hm)
      simp only [List.map_cons, List.map_nil, hm, hmark]
      exact .indirect m _
    · rename_i hmark
      cases h
      dsimp only at hop
      simp only [List.map_cons, List.map_nil, hop]
      exact .labelled _ op _ fun m hm hoperand => hmark (marked_iff.2 ⟨⟨m, hm⟩, hoperand⟩)
  · split at h
    · rename_i hmark
      obtain ⟨⟨m, hm⟩, hmark⟩ := marked_iff.1 hmark
      cases h
      obtain rfl : op = .memory m := Operation.mnemonic_injective (hop.symm.trans hm)
      simp only [List.map_cons, List.map_nil, hm, hmark]
      exact .labelledIndirect _ m _
    · cases h
  · cases h

/-- The words of a statement have a shape, of which each part is that of the statement. -/
theorem Shape.exists_of_spelled {t : Statement} {words : List String}
    (h : Statement.Spelled words t) (hw : tokens.map (·.text) = words) :
    ∃ shape, ofTokens? tokens = some shape ∧ shape.op.text = t.op.mnemonic ∧
      t = ⟨shape.label.map (·.text), t.op, shape.operand.map (·.text), shape.indirect⟩ := by
  cases h with
  | bare op =>
    obtain ⟨a, _, rfl, ha, hnil⟩ := List.map_eq_cons_iff.1 hw
    obtain rfl := List.map_eq_nil_iff.1 hnil
    exact ⟨_, rfl, ha, rfl⟩
  | operand op x =>
    obtain ⟨a, _, rfl, ha, hb⟩ := List.map_eq_cons_iff.1 hw
    obtain ⟨b, _, rfl, rfl, hnil⟩ := List.map_eq_cons_iff.1 hb
    obtain rfl := List.map_eq_nil_iff.1 hnil
    exact ⟨_, rfl, ha, rfl⟩
  | indirect m x =>
    obtain ⟨a, _, rfl, ha, hb⟩ := List.map_eq_cons_iff.1 hw
    obtain ⟨b, _, rfl, rfl, hc⟩ := List.map_eq_cons_iff.1 hb
    obtain ⟨c, _, rfl, hmark, hnil⟩ := List.map_eq_cons_iff.1 hc
    obtain rfl := List.map_eq_nil_iff.1 hnil
    exact ⟨_, if_pos (marked_iff.2 ⟨⟨m, ha⟩, hmark⟩), ha, rfl⟩
  | labelled label op x hnot =>
    obtain ⟨a, _, rfl, rfl, hb⟩ := List.map_eq_cons_iff.1 hw
    obtain ⟨b, _, rfl, hop, hc⟩ := List.map_eq_cons_iff.1 hb
    obtain ⟨c, _, rfl, rfl, hnil⟩ := List.map_eq_cons_iff.1 hc
    obtain rfl := List.map_eq_nil_iff.1 hnil
    refine ⟨_, if_neg ?_, hop, rfl⟩
    rw [marked_iff]
    rintro ⟨⟨m, hm⟩, hmark⟩
    exact hnot m hm hmark
  | labelledIndirect label m x =>
    obtain ⟨a, _, rfl, rfl, hb⟩ := List.map_eq_cons_iff.1 hw
    obtain ⟨b, _, rfl, hop, hc⟩ := List.map_eq_cons_iff.1 hb
    obtain ⟨c, _, rfl, rfl, hd⟩ := List.map_eq_cons_iff.1 hc
    obtain ⟨d, _, rfl, hmark, hnil⟩ := List.map_eq_cons_iff.1 hd
    obtain rfl := List.map_eq_nil_iff.1 hnil
    exact ⟨_, if_pos (marked_iff.2 ⟨⟨m, hop⟩, hmark⟩), hop, rfl⟩

namespace SourceStatement

variable {number : Option Int} {file : Option String} {source : String}

/-- Tokens are read as a statement exactly if their words spell it. -/
theorem ofTokens_eq_ok_iff {s : SourceStatement} :
    ofTokens tokens number file source = .ok s ↔
      Statement.Spelled (tokens.map (·.text)) s.toStatement ∧
        s.origin = ⟨some (startOf tokens number file), some source⟩ := by
  constructor
  · intro h
    refine ⟨?_, (ofTokens_eq_ok h).1⟩
    unfold ofTokens at h
    cases hs : Shape.ofTokens? tokens with
    | none => simp only [hs] at h; cases h
    | some shape =>
      simp only [hs, Operation.read] at h
      cases hop : Operation.ofMnemonic? shape.op.text with
      | none => simp only [hop, orUnknown] at h; cases h
      | some op =>
        simp only [hop, orUnknown] at h
        cases h
        exact Shape.spelled hs hop
  · rintro ⟨hspelled, horigin⟩
    obtain ⟨shape, hs, hop, hparts⟩ := Shape.exists_of_spelled hspelled rfl
    obtain ⟨t, origin⟩ := s
    dsimp only at hop hparts horigin
    unfold ofTokens
    simp only [hs, Operation.read, hop, Operation.ofMnemonic?_mnemonic, orUnknown]
    rw [hparts, horigin]

theorem ofTokens_of_spelled {t : Statement} (h : Statement.Spelled (tokens.map (·.text)) t) :
    ofTokens tokens number file source =
      .ok ⟨t, ⟨some (startOf tokens number file), some source⟩⟩ :=
  ofTokens_eq_ok_iff.2 ⟨h, rfl⟩

end SourceStatement

end Tokens

end TwoPass
