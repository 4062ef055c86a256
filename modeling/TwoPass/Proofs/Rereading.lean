import TwoPass.Proofs.Grammar
import TwoPass.Proofs.Renderings
import TwoPass.Proofs.Scanning

/-!
# Statements written and read again

A statement is written as its words, one blank apart. What was read from a text is written so that
it is read as the same statement again: its words hold no blanks, and they have the form that they
had on the line. `Statement.Spellable` says which statements there are lines for, and the writing of
any other is read as something else, or not at all.
-/

namespace TwoPass

namespace Text

/-- A word: at least one character, and none of them blank. -/
def IsWord (text : String) : Prop :=
  text.toList ≠ [] ∧ ∀ c ∈ text.toList, isBlank c = false

theorem IsWord.dropWhile_append {text : String} (h : IsWord text) (more : List Char) :
    (text.toList ++ more).dropWhile isBlank = text.toList ++ more := by
  obtain ⟨hne, hword⟩ := h
  cases hcs : text.toList with
  | nil => exact absurd hcs hne
  | cons c cs =>
    rw [hcs] at hword
    have hc : ¬ isBlank c = true := by simp [hword c List.mem_cons_self]
    rw [List.cons_append, List.dropWhile_cons_of_neg hc]

theorem IsWord.reverse {text : String} (h : IsWord text) :
    IsWord (String.ofList text.toList.reverse) := by
  unfold IsWord
  rw [String.toList_ofList]
  exact ⟨by simpa using h.1, by simpa using h.2⟩

section Joined

variable {words : List String}

/-- Words that are joined start with one of them and end with one. -/
theorem intercalate_ends (hne : words ≠ []) :
    (∃ first ∈ words, ∃ more, (" ".intercalate words).toList = first.toList ++ more) ∧
      ∃ last ∈ words, ∃ before, (" ".intercalate words).toList = before ++ last.toList := by
  induction words with
  | nil => exact absurd rfl hne
  | cons word words ih =>
    cases words with
    | nil =>
      rw [String.intercalate_singleton]
      exact ⟨⟨word, List.mem_cons_self, [], (List.append_nil _).symm⟩, word, List.mem_cons_self, [],
        rfl⟩
    | cons next words =>
      obtain ⟨-, last, hlast, before, hbefore⟩ := ih (List.cons_ne_nil _ _)
      rw [String.intercalate_cons_cons, String.toList_append, String.toList_append, hbefore]
      refine ⟨⟨word, List.mem_cons_self, _, List.append_assoc _ _ _⟩, last,
        List.mem_cons_of_mem _ hlast, _, (List.append_assoc _ _ _).symm⟩

theorem trim_intercalate (hne : words ≠ []) (hwords : ∀ word ∈ words, IsWord word) :
    trim (" ".intercalate words) = " ".intercalate words := by
  obtain ⟨⟨first, hfirst, more, hmore⟩, last, hlast, before, hbefore⟩ := intercalate_ends hne
  have hstart : (" ".intercalate words).toList.dropWhile isBlank =
      (" ".intercalate words).toList := by
    rw [hmore]
    exact (hwords first hfirst).dropWhile_append more
  have hend : (" ".intercalate words).toList.reverse.dropWhile isBlank =
      (" ".intercalate words).toList.reverse := by
    have hreverse := (hwords last hlast).reverse.dropWhile_append before.reverse
    rw [String.toList_ofList] at hreverse
    rw [hbefore, List.reverse_append]
    exact hreverse
  rw [trim, hstart, hend, List.reverse_reverse, String.ofList_toList]

theorem trim_blank (text : String) : trim (" " ++ text) = trim text := by
  unfold trim
  rw [String.toList_append]
  rfl

end Joined

end Text

namespace RawLine

/-- Words that are joined are read as these words. -/
theorem words_intercalate {words : List String} (h : ∀ word ∈ words, Text.IsWord word) :
    (RawLine.text (" ".intercalate words)).words = words := by
  induction words with
  | nil => rfl
  | cons word words ih =>
    obtain ⟨⟨hne, hword⟩, hrest⟩ := List.forall_mem_cons.1 h
    have hkept : (!word.toList.isEmpty) = true := by simpa using hne
    cases words with
    | nil =>
      rw [String.intercalate_singleton, RawLine.words, List.splitOnP_eq_singleton hword,
        List.filter_cons, if_pos hkept]
      show [String.ofList word.toList] = [word]
      rw [String.ofList_toList]
    | cons next words =>
      have hnext := ih hrest
      have hline : (" ".intercalate (word :: next :: words)).toList =
          word.toList ++ ' ' :: (" ".intercalate (next :: words)).toList := by
        rw [String.intercalate_cons_cons, String.toList_append, String.toList_append,
          List.append_assoc]
        rfl
      rw [RawLine.words] at hnext ⊢
      rw [hline, List.splitOnP_append_cons_of_forall_mem hword ' ' rfl,
        List.filter_cons, if_pos hkept, List.map_cons, hnext, String.ofList_toList]

theorem isWord_of_mem_words {line word : String} (h : word ∈ (RawLine.text line).words) :
    Text.IsWord word := by
  rw [← map_text_tokens (.text line) none none] at h
  obtain ⟨t, ht, rfl⟩ := List.mem_map.1 h
  refine ⟨?_, Token.not_blank_of_mem_scan ht⟩
  have ht' : t ∈ Token.scan line none none := ht
  rw [Token.scan_eq, List.mem_map] at ht'
  obtain ⟨i, hi, rfl⟩ := ht'
  show (String.ofList _).toList ≠ []
  rw [String.toList_ofList]
  exact Token.wordAt_ne_nil hi

end RawLine

namespace Statement

variable {t : Statement}

/-- The words of a statement, in the order in which they are written. -/
def words (t : Statement) : List String :=
  t.label.toList ++ [t.op.mnemonic] ++ t.operand.toList ++
    if t.indirect then [indirectMark] else []

/-- Statements that there is a line for. The label and the operand are words, a label stands only
before an operation with an operand, and the mark only behind the operand of a memory reference. A
direct statement does not have the mnemonic of a memory reference for its label and the mark for its
operand: these words are read as an indirect reference. -/
structure Spellable (t : Statement) : Prop where
  label : ∀ text, t.label = some text → Text.IsWord text
  operand : ∀ text, t.operand = some text → Text.IsWord text
  operand_of_label : t.label ≠ none → t.operand ≠ none
  reference_of_indirect : t.indirect = true → (∃ op, t.op = .memory op) ∧ t.operand ≠ none
  unmarked : ¬ (t.indirect = false ∧ (∃ m : MemoryOp, t.label = some m.mnemonic) ∧
    t.operand = some indirectMark)

theorem eq_words_of_spelled {words : List String} (h : Spelled words t) : words = t.words := by
  cases h <;> rfl

theorem Spellable.spelled (h : t.Spellable) : Spelled t.words t := by
  obtain ⟨label, op, operand, indirect⟩ := t
  obtain ⟨-, -, hlabel, hindirect, hunmarked⟩ := h
  cases label with
  | none =>
    cases operand with
    | none =>
      cases indirect with
      | false => exact .bare op
      | true => exact absurd rfl (hindirect rfl).2
    | some operand =>
      cases indirect with
      | false => exact .operand op operand
      | true =>
        obtain ⟨⟨m, rfl⟩, -⟩ := hindirect rfl
        exact .indirect m operand
  | some label =>
    cases operand with
    | none => exact absurd rfl (hlabel (Option.some_ne_none label))
    | some operand =>
      cases indirect with
      | false =>
        refine .labelled label op operand ?_
        rintro m rfl rfl
        exact hunmarked ⟨rfl, ⟨m, rfl⟩, rfl⟩
      | true =>
        obtain ⟨⟨m, rfl⟩, -⟩ := hindirect rfl
        exact .labelledIndirect label m operand

theorem Spelled.spellable {words : List String} (h : Spelled words t)
    (hwords : ∀ word ∈ words, Text.IsWord word) : t.Spellable := by
  have hlabel : ∀ text, t.label = some text → text ∈ words := by
    intro text htext
    rw [eq_words_of_spelled h, Statement.words, htext]
    simp
  have hoperand : ∀ text, t.operand = some text → text ∈ words := by
    intro text htext
    rw [eq_words_of_spelled h, Statement.words, htext]
    simp
  refine ⟨fun text htext => hwords text (hlabel text htext),
    fun text htext => hwords text (hoperand text htext), ?_, ?_, ?_⟩
  · cases h <;> simp
  · cases h <;> simp
  · -- only the form with a label and without the mark is in question
    rintro ⟨hdirect, ⟨m, hm⟩, hmark⟩
    cases h with
    | labelled label op operand hnot =>
      exact hnot m (Option.some.inj hm) (Option.some.inj hmark)
    | labelledIndirect => cases hdirect
    | bare | operand | indirect => cases hm

theorem Spellable.isWord (h : t.Spellable) : ∀ word ∈ t.words, Text.IsWord word := by
  have hmark : Text.IsWord indirectMark := by
    have hchars : indirectMark.toList = ['I'] := rfl
    rw [Text.IsWord, hchars]
    exact ⟨List.cons_ne_nil _ _, List.forall_mem_singleton.2 rfl⟩
  intro word hword
  simp only [words, List.mem_append, Option.mem_toList, List.mem_singleton] at hword
  rcases hword with ((hlabel | rfl) | hoperand) | hindirect
  · exact h.label word hlabel
  · exact ⟨t.op.mnemonic_ne_nil, t.op.not_blank_of_mem_mnemonic⟩
  · exact h.operand word hoperand
  · split at hindirect
    · rw [List.mem_singleton.1 hindirect]
      exact hmark
    · cases hindirect

/-- A statement is written as its words, one blank apart. -/
theorem Spellable.text_eq (h : t.Spellable) : t.text = " ".intercalate t.words := by
  have htrim := Text.trim_intercalate (by simp [words]) h.isWord
  unfold text
  cases hlabel : t.label with
  | none =>
    -- the missing label leaves a blank in front, which is cut off
    have hwords : t.words = t.op.mnemonic ::
        (t.operand.toList ++ if t.indirect then [indirectMark] else []) := by
      rw [words, hlabel]
      rfl
    rw [hwords] at htrim ⊢
    show Text.trim (" ".intercalate ("" :: t.op.mnemonic :: _)) = _
    rw [String.intercalate_cons_cons, String.empty_append, Text.trim_blank]
    exact htrim
  | some label =>
    have hwords : t.words = [label, t.op.mnemonic] ++ t.operand.toList ++
        if t.indirect then [indirectMark] else [] := by
      rw [words, hlabel]
      rfl
    rw [hwords] at htrim ⊢
    exact htrim

end Statement

namespace SourceStatement

/-- What is read from a text is written as its words, one blank apart. -/
theorem spellable_of_ofTokens {line : String} {number : Option Int} {file : Option String}
    {source : String} {s : SourceStatement}
    (h : ofTokens (Token.scan line number file) number file source = .ok s) :
    s.toStatement.Spellable ∧
      s.text = " ".intercalate ((Token.scan line number file).map (·.text)) := by
  have hwords : (Token.scan line number file).map (·.text) = (RawLine.text line).words :=
    (RawLine.text line).map_text_tokens number file
  obtain ⟨hspelled, -⟩ := ofTokens_eq_ok_iff.1 h
  rw [hwords] at hspelled ⊢
  have hspellable : s.toStatement.Spellable :=
    hspelled.spellable fun _ hword => RawLine.isWord_of_mem_words hword
  refine ⟨hspellable, ?_⟩
  rw [hspellable.text_eq, Statement.eq_words_of_spelled hspelled]

theorem exists_ofLine_text {t : Statement} (h : t.Spellable) (number : Option Int)
    (file source : Option String) :
    ∃ s, ofLine (.text t.text) number file source = .ok s ∧ s.toStatement = t := by
  have hspelled : Statement.Spelled
      (((RawLine.text t.text).tokens number file).map (·.text)) t := by
    rw [RawLine.map_text_tokens, h.text_eq, RawLine.words_intercalate h.isWord]
    exact h.spelled
  exact ⟨_, ofTokens_of_spelled hspelled, rfl⟩

/-- The lines as which statements are written. -/
def written (p : List SourceStatement) : List RawLine :=
  p.map fun s => .text s.text

theorem exists_ofLines_written {p : List SourceStatement}
    (h : ∀ s ∈ p, s.toStatement.Spellable) (file : Option String) (number : Nat) :
    ∃ q, ((written p).zipIdx number).mapM (fun x => ofLine x.1 (some x.2) file none) = .ok q ∧
      List.Forall₂ (fun s t => s.toStatement = t.toStatement) p q := by
  induction p generalizing number with
  | nil => exact ⟨[], rfl, .nil⟩
  | cons s p ih =>
    obtain ⟨hs, hp⟩ := List.forall_mem_cons.1 h
    obtain ⟨t, ht, hst⟩ := exists_ofLine_text hs (some number) file none
    obtain ⟨q, hq, hpq⟩ := ih hp (number + 1)
    refine ⟨t :: q, ?_, .cons hst.symm hpq⟩
    show List.mapM _ ((RawLine.text s.text :: written p).zipIdx number) = _
    rw [List.zipIdx_cons, List.mapM_cons, ht, hq]
    rfl

end SourceStatement

theorem ReadFromText.spellable {p : List SourceStatement} (h : ReadFromText p) :
    ∀ s ∈ p, s.toStatement.Spellable := by
  intro s hs
  cases h with
  | source source file commentChars hread =>
    obtain ⟨l, hl, hstatement⟩ := exists_of_mem_mapM hread hs
    obtain ⟨-, -, htokens, -⟩ := CodeLine.of_mem_scan hl
    rw [htokens] at hstatement
    exact (SourceStatement.spellable_of_ofTokens hstatement).1
  | lines lines file hread =>
    obtain ⟨⟨line, number⟩, hline, hstatement⟩ := exists_of_mem_mapM hread hs
    obtain ⟨line, -, rfl⟩ := List.mem_map.1 (List.fst_mem_of_mem_zipIdx hline)
    exact (SourceStatement.spellable_of_ofTokens hstatement).1

theorem Assembly.statements_of_assemble {settings : Settings} {p : List SourceStatement}
    {a : Assembly} (h : assemble settings p = .ok a) : a.statements = p := by
  obtain ⟨_, _, _, _, -, -, rfl⟩ := assemble_eq_ok h
  rfl

/-- Statements from a text are assembled alike after they were written and read again. -/
theorem ReadFromText.assemble_written {p : List SourceStatement} (h : ReadFromText p)
    {settings : Settings} {a : Assembly} (ha : Assembly.assemble settings p = .ok a)
    (file : Option String) :
    ∃ b, Assembly.ofReading settings
        (SourceStatement.ofLines (SourceStatement.written a.statements) file) = .ok b ∧
      b.statements.map (·.toStatement) = a.statements.map (·.toStatement) ∧
      b.labels.toList = a.labels.toList ∧
      b.cells.map (fun c => (c.address, c.word)) = a.cells.map (fun c => (c.address, c.word)) ∧
      b.layoutTrace = a.layoutTrace ∧ b.emissionTrace = a.emissionTrace := by
  obtain ⟨q, hq, hpq⟩ := SourceStatement.exists_ofLines_written h.spellable file 1
  obtain ⟨hruns, hsame⟩ := Assembly.assemble_of_same_statements hpq settings
  obtain ⟨b, hb⟩ := hruns.2 ⟨a, ha⟩
  refine ⟨b, ?_, ?_, hsame a b ha hb⟩
  · rw [Assembly.statements_of_assemble ha]
    exact Assembly.ofReading_eq_ok_iff.2 ⟨q, hq, hb⟩
  · rw [Assembly.statements_of_assemble ha, Assembly.statements_of_assemble hb]
    have heq : List.Forall₂ (· = ·) (p.map (·.toStatement)) (q.map (·.toStatement)) := by
      rw [List.forall₂_map_left_iff, List.forall₂_map_right_iff]
      exact hpq
    rw [List.forall₂_eq_eq_eq] at heq
    exact heq.symm

/-- Writing and reading undo each other. A statement that is read from a line of text is written as
the words of the line, one blank apart, and is read from this again, under any number and name. The
statements that are read from lines are the spellable ones, and only these are read from what they
are written as. What a session has assembled from a source, or from lines of text, it also assembles
from the lines as which the statements are written, with the same statements, labels, words and
traces. -/
theorem SourceStatement.text_reads_back :
    (∀ (line : String) (number : Option Int) (file source : Option String) (s : SourceStatement),
      ofLine (.text line) number file source = .ok s →
        s.text = " ".intercalate ((Token.scan line number file).map (·.text)) ∧
        ∀ (number' : Option Int) (file' source' : Option String),
          ∃ s', ofLine (.text s.text) number' file' source' = .ok s' ∧
            s'.toStatement = s.toStatement) ∧
    (∀ t : Statement,
      ((∃ line number file source s, ofLine (.text line) number file source = .ok s ∧
          s.toStatement = t) ↔ t.Spellable) ∧
      ∀ (number : Option Int) (file source : Option String),
        (∃ s, ofLine (.text t.text) number file source = .ok s ∧ s.toStatement = t) ↔
          t.Spellable) ∧
    ∀ (session : Session) (file : Option String) (a : Assembly),
      ((∃ source, (session.assembleSource source file).2.result = .ok a) ∨
        ∃ lines : List String, (session.assembleLines (lines.map .text) file).2.result = .ok a) →
      ∀ file' : Option String,
        ∃ b, (session.assembleLines (written a.statements) file').2.result = .ok b ∧
          b.statements.map (·.toStatement) = a.statements.map (·.toStatement) ∧
          b.labels.toList = a.labels.toList ∧
          b.cells.map (fun c => (c.address, c.word)) = a.cells.map (fun c => (c.address, c.word)) ∧
          b.layoutTrace = a.layoutTrace ∧ b.emissionTrace = a.emissionTrace := by
  have hread : ∀ {line number file source s}, ofLine (.text line) number file source = .ok s →
      s.toStatement.Spellable ∧
        s.text = " ".intercalate ((Token.scan line number file).map (·.text)) :=
    fun h => spellable_of_ofTokens h
  refine ⟨?_, ?_, ?_⟩
  · intro line number file source s hs
    obtain ⟨hspellable, htext⟩ := hread hs
    exact ⟨htext, exists_ofLine_text hspellable⟩
  · intro t
    refine ⟨⟨?_, ?_⟩, fun number file source => ⟨?_, ?_⟩⟩
    · rintro ⟨line, number, file, source, s, hs, rfl⟩
      exact (hread hs).1
    · intro h
      exact ⟨t.text, none, none, none, exists_ofLine_text h none none none⟩
    · rintro ⟨s, hs, rfl⟩
      exact (hread hs).1
    · intro h
      exact exists_ofLine_text h number file source
  · intro session file a ha file'
    obtain ⟨p, hp, hassembled⟩ :
        ∃ p, ReadFromText p ∧ Assembly.assemble session.settings p = .ok a := by
      rcases ha with ⟨source, ha⟩ | ⟨lines, ha⟩
      · rw [session.assembleSource_result] at ha
        obtain ⟨p, hp, hassembled⟩ := Assembly.ofReading_eq_ok_iff.1 ha
        exact ⟨p, .source source file _ hp, hassembled⟩
      · rw [Session.assembleLines, session.assembleRead_result] at ha
        obtain ⟨p, hp, hassembled⟩ := Assembly.ofReading_eq_ok_iff.1 ha
        exact ⟨p, .lines lines file hp, hassembled⟩
    rw [Session.assembleLines, session.assembleRead_result]
    exact hp.assemble_written hassembled file'

/-- A program with wide gaps, a comment and a mnemonic for a label. -/
def looseSource : String :=
  "\tORG  10 / start\nADD \tLDA  B   I\n\n B DEC -7\nEND"

theorem SourceStatement.text_reads_back_of_looseSource :
    (∃ s s', ofLine (.text "\tADD  LDA X\u00a0I ") (some 4) none none = .ok s ∧
      s.text = "ADD LDA X I" ∧
      ofLine (.text s.text) none (some "copy.asm") none = .ok s' ∧
      s'.toStatement = s.toStatement) ∧
    (¬ ∃ s, ofLine (.text (Statement.text ⟨some "LDA", .register .cla, some "I", false⟩)) none none
      none = .ok s ∧ s.toStatement = ⟨some "LDA", .register .cla, some "I", false⟩) ∧
    ∃ a b, (({} : Session).assembleSource looseSource none).2.result = .ok a ∧
      written a.statements =
        [.text "ORG 10", .text "ADD LDA B I", .text "B DEC -7", .text "END"] ∧
      (({} : Session).assembleLines (written a.statements) none).2.result = .ok b ∧
      b.labels.toList = a.labels.toList ∧
      b.cells.map (fun c => (c.address, c.word)) = [(16, 0xA011), (17, 0xFFF9)] := by
  obtain ⟨hlines, himage, hsources⟩ := text_reads_back
  refine ⟨?_, ?_, ?_⟩
  · obtain ⟨s, hs⟩ : ∃ s, ofLine (.text "\tADD  LDA X\u00a0I ") (some 4) none none = .ok s :=
      ⟨_, rfl⟩
    obtain ⟨htext, hback⟩ := hlines _ _ _ _ s hs
    obtain ⟨s', hs', hsame⟩ := hback none (some "copy.asm") none
    refine ⟨s, s', hs, ?_, hs', hsame⟩
    rw [htext]
    decide +kernel
  · rw [(himage _).2]
    intro h
    exact h.unmarked ⟨rfl, ⟨.lda, rfl⟩, rfl⟩
  · have hseen : (Assembly.ofReading {} (ofSource looseSource none ";/")).toOption.map (fun a =>
        (written a.statements, a.cells.map fun c => (c.address, c.word))) =
        some ([.text "ORG 10", .text "ADD LDA B I", .text "B DEC -7", .text "END"],
          [(16, 0xA011), (17, 0xFFF9)]) := by
      decide +kernel
    have hresult := Session.assembleSource_result {} looseSource none
    cases hread : Assembly.ofReading {} (ofSource looseSource none ";/") with
    | error f =>
      rw [hread] at hseen
      cases hseen
    | ok a =>
      rw [hread] at hseen
      have hparts := Option.some.inj hseen
      have ha := hresult.trans hread
      obtain ⟨b, hb, -, hlabels, hcells, -⟩ := hsources {} none a (Or.inl ⟨_, ha⟩) none
      exact ⟨a, b, ha, congrArg Prod.fst hparts, hb, hlabels,
        hcells.trans (congrArg Prod.snd hparts)⟩

end TwoPass
