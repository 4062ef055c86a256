import Mathlib.Data.List.TakeWhile
import TwoPass.Proofs.Encodings
import TwoPass.Proofs.Words
import TwoPass.Statement.Reader

/-!
# Reading

Where the statements of a source text come from. Each starts at the first word of a line, and its
label and its operand are words of that line. A line without a statement is refused at its first
word, or at its mnemonic if that is unknown.
-/

namespace TwoPass

section Traversal

variable {ε α β : Type} {f : α → Except ε β} {xs : List α}

theorem exists_of_mem_mapM {ys : List β} (h : xs.mapM f = .ok ys) {y : β} (hy : y ∈ ys) :
    ∃ x ∈ xs, f x = .ok y := by
  induction xs generalizing ys with
  | nil =>
    cases h
    cases hy
  | cons x xs ih =>
    rw [List.mapM_cons] at h
    cases hx : f x with
    | error e => rw [hx] at h; cases h
    | ok z =>
      cases hxs : xs.mapM f with
      | error e => rw [hx, hxs] at h; cases h
      | ok zs =>
        rw [hx, hxs] at h
        cases h
        rcases List.mem_cons.1 hy with rfl | hy
        · exact ⟨x, List.mem_cons_self, hx⟩
        · obtain ⟨w, hw, hwy⟩ := ih hxs hy
          exact ⟨w, List.mem_cons_of_mem x hw, hwy⟩

theorem exists_of_mapM_eq_error {e : ε} (h : xs.mapM f = .error e) : ∃ x ∈ xs, f x = .error e := by
  induction xs with
  | nil => cases h
  | cons x xs ih =>
    rw [List.mapM_cons] at h
    cases hx : f x with
    | error e' =>
      rw [hx] at h
      cases h
      exact ⟨x, List.mem_cons_self, hx⟩
    | ok z =>
      cases hxs : xs.mapM f with
      | ok zs => rw [hx, hxs] at h; cases h
      | error e' =>
        rw [hx, hxs] at h
        cases h
        obtain ⟨w, hw, hwe⟩ := ih hxs
        exact ⟨w, List.mem_cons_of_mem x hw, hwe⟩

end Traversal

theorem Operation.ofMnemonic?_of_memory {text : String} {op : MemoryOp}
    (h : MemoryOp.ofMnemonic? text = some op) : Operation.ofMnemonic? text = some (.memory op) := by
  unfold MemoryOp.ofMnemonic? at h
  have htext := List.find?_some h
  have hread := Operation.ofMnemonic?_mnemonic (.memory op)
  have hmnemonic : (Operation.memory op).mnemonic = op.mnemonic := rfl
  rwa [hmnemonic, beq_iff_eq.1 htext] at hread

/-- The place of an unknown mnemonic among the words of a line: the second of three, else the
first. -/
def mnemonicPlace (count : Nat) : Nat :=
  if count = 3 then 1 else 0

namespace Shape

variable {tokens : List Token} {shape : Shape}

-- the shapes with a mark have the mnemonic of a memory reference, which is known
theorem op_of_unknown (h : ofTokens? tokens = some shape)
    (hu : Operation.ofMnemonic? shape.op.text = none) :
    tokens[mnemonicPlace tokens.length]? = some shape.op := by
  have hknown : ∀ text, Operation.ofMnemonic? text = none →
      (MemoryOp.ofMnemonic? text).isSome = false := by
    intro text ht
    cases hm : MemoryOp.ofMnemonic? text with
    | none => rfl
    | some op =>
      rw [Operation.ofMnemonic?_of_memory hm] at ht
      cases ht
  unfold ofTokens? at h
  split at h
  · cases h; rfl
  · cases h; rfl
  · split at h
    · rename_i hmark
      cases h
      rw [hknown _ hu] at hmark
      cases hmark
    · cases h; rfl
  · split at h
    · rename_i hmark
      cases h
      rw [hknown _ hu] at hmark
      cases hmark
    · cases h
  · cases h

theorem label_mem (h : ofTokens? tokens = some shape) {t : Token} (ht : shape.label = some t) :
    t ∈ tokens := by
  unfold ofTokens? at h
  split at h
  · cases h; cases ht
  · cases h; cases ht
  · split at h <;> cases h <;> cases ht
    exact List.mem_cons_self
  · split at h <;> cases h
    cases ht
    exact List.mem_cons_self
  · cases h

theorem operand_mem (h : ofTokens? tokens = some shape) {t : Token} (ht : shape.operand = some t) :
    t ∈ tokens := by
  unfold ofTokens? at h
  split at h
  · cases h; cases ht
  · cases h; cases ht; simp
  · split at h <;> cases h <;> cases ht <;> simp
  · split at h <;> cases h
    cases ht
    simp
  · cases h

end Shape

namespace SourceStatement

variable {tokens : List Token} {number : Option Int} {file : Option String} {source : String}

theorem ofTokens_eq_error {d : Diagnostic} (h : ofTokens tokens number file source = .error d) :
    d = ⟨.fieldCount tokens.length, ⟨some (startOf tokens number file), some source⟩⟩ ∨
      ∃ t, tokens[mnemonicPlace tokens.length]? = some t ∧
        Operation.ofMnemonic? t.text = none ∧
        d = ⟨.unknownMnemonic t.text, ⟨some t.location, some source⟩⟩ := by
  unfold ofTokens at h
  cases hs : Shape.ofTokens? tokens with
  | none =>
    simp only [hs] at h
    cases h
    exact Or.inl rfl
  | some shape =>
    simp only [hs, Operation.read] at h
    cases hop : Operation.ofMnemonic? shape.op.text with
    | some op => simp only [hop, orUnknown] at h; cases h
    | none =>
      simp only [hop, orUnknown] at h
      cases h
      exact Or.inr ⟨shape.op, Shape.op_of_unknown hs hop, hop, rfl⟩

theorem ofTokens_eq_ok {s : SourceStatement} (h : ofTokens tokens number file source = .ok s) :
    s.origin = ⟨some (startOf tokens number file), some source⟩ ∧
      ∀ text, s.label = some text ∨ s.operand = some text → ∃ t ∈ tokens, t.text = text := by
  unfold ofTokens at h
  cases hs : Shape.ofTokens? tokens with
  | none => simp only [hs] at h; cases h
  | some shape =>
    simp only [hs, Operation.read] at h
    cases hop : Operation.ofMnemonic? shape.op.text with
    | none => simp only [hop, orUnknown] at h; cases h
    | some op =>
      simp only [hop, orUnknown] at h
      cases h
      refine ⟨rfl, ?_⟩
      intro text htext
      rcases htext with htext | htext
      · obtain ⟨t, ht, rfl⟩ := Option.map_eq_some_iff.1 htext
        exact ⟨t, Shape.label_mem hs ht, rfl⟩
      · obtain ⟨t, ht, rfl⟩ := Option.map_eq_some_iff.1 htext
        exact ⟨t, Shape.operand_mem hs ht, rfl⟩

end SourceStatement

theorem CodeLine.of_mem_scan {source commentChars : String} {file : Option String} {l : CodeLine}
    (h : l ∈ scan source file commentChars) :
    1 ≤ l.number ∧ (Text.lines source)[l.number - 1]? = some l.text ∧
      l.tokens = Token.scan (withoutComment commentChars l.text) (some l.number) file ∧
      l.tokens ≠ [] := by
  obtain ⟨⟨text, number⟩, hmem, hl⟩ := List.mem_filterMap.1 h
  obtain ⟨hnumber, htext⟩ := List.mk_mem_zipIdx_iff_le_and_getElem?_sub.1 hmem
  simp only [ofText?] at hl
  split at hl
  · cases hl
  · rename_i hne
    cases hl
    dsimp only
    exact ⟨hnumber, htext, rfl, hne⟩

/-- The indices at which the words of a line start that stand before its comment. -/
def CodeLine.wordStarts (commentChars line : String) : List Nat :=
  Token.starts (withoutComment commentChars line).toList

theorem CodeLine.of_mem_wordStarts {commentChars line : String} {index : Nat}
    (h : index ∈ wordStarts commentChars line) :
    Token.startsAt line.toList index = true ∧
      ∀ c ∈ line.toList.take (index + 1), c ∉ commentChars.toList := by
  have hcode : (withoutComment commentChars line).toList =
      line.toList.takeWhile fun c => !commentChars.toList.contains c := String.toList_ofList
  obtain ⟨comment, hline⟩ := List.takeWhile_prefix
    (l := line.toList) fun c => !commentChars.toList.contains c
  obtain ⟨hlt, hstart⟩ := Token.of_mem_starts h
  rw [← hcode] at hline
  rw [← hline]
  refine ⟨Token.startsAt_append hlt hstart comment, ?_⟩
  intro c hc
  rw [List.take_append_of_le_length hlt, hcode] at hc
  have hnot := List.all_eq_true.1 List.all_takeWhile c (List.mem_of_mem_take hc)
  simpa using hnot

/-- A word of a source text: the number and the text of its line, its place among the words that
stand there before a comment, and the index at which it starts. -/
structure SourceWord (source commentChars : String) where
  number : Nat
  line : String
  place : Nat
  index : Nat
  one_le_number : 1 ≤ number
  isLine : (Text.lines source)[number - 1]? = some line
  isStart : (CodeLine.wordStarts commentChars line)[place]? = some index

namespace SourceWord

variable {source commentChars : String}

def text (w : SourceWord source commentChars) : String :=
  String.ofList (Token.wordAt (CodeLine.withoutComment commentChars w.line).toList w.index)

/-- The number of words on the line. -/
def count (w : SourceWord source commentChars) : Nat :=
  (CodeLine.wordStarts commentChars w.line).length

/-- What a message about the word points at. -/
def origin (w : SourceWord source commentChars) (file : Option String) : Origin :=
  ⟨some ⟨file, some w.number, (w.index + 1 : Nat)⟩, some w.line⟩

theorem number_le (w : SourceWord source commentChars) :
    w.number ≤ (Text.lines source).length := by
  have hlt := (List.getElem?_eq_some_iff.1 w.isLine).1
  omega

end SourceWord

theorem Token.not_blank_of_mem_wordAt {cs : List Char} {i : Nat} {c : Char}
    (h : c ∈ wordAt cs i) : Text.isBlank c = false := by
  have hword := List.all_eq_true.1 (List.all_takeWhile (l := cs.drop i)) c h
  simpa using hword

theorem Token.not_blank_of_mem_scan {line : String} {number : Option Int} {file : Option String}
    {t : Token} (h : t ∈ scan line number file) :
    ∀ c ∈ t.text.toList, Text.isBlank c = false := by
  rw [scan_eq, List.mem_map] at h
  obtain ⟨i, -, rfl⟩ := h
  intro c hc
  rw [String.toList_ofList] at hc
  exact not_blank_of_mem_wordAt hc

section Source

variable {source commentChars : String} {file : Option String} {l : CodeLine}

theorem CodeLine.exists_word_of_token (h : l ∈ scan source file commentChars) {place : Nat}
    {t : Token} (ht : l.tokens[place]? = some t) :
    ∃ w : SourceWord source commentChars, w.place = place ∧ w.count = l.tokens.length ∧
      w.text = t.text ∧ w.origin file = ⟨some t.location, some l.text⟩ := by
  obtain ⟨hnumber, hline, htokens, -⟩ := of_mem_scan h
  have hcount : l.tokens.length = (wordStarts commentChars l.text).length := by
    rw [htokens, Token.scan_eq, List.length_map]
    rfl
  -- the token is the word that starts at some index, and its column counts from one
  rw [htokens, Token.scan_eq, List.getElem?_map, Option.map_eq_some_iff] at ht
  obtain ⟨index, hindex, rfl⟩ := ht
  exact ⟨⟨l.number, l.text, place, index, hnumber, hline, hindex⟩, rfl, hcount.symm, rfl, rfl⟩

theorem CodeLine.exists_first_word (h : l ∈ scan source file commentChars) :
    ∃ w : SourceWord source commentChars, w.place = 0 ∧
      w.origin file = ⟨some (startOf l.tokens (some l.number) file), some l.text⟩ := by
  obtain ⟨-, -, -, hne⟩ := of_mem_scan h
  cases ht : l.tokens with
  | nil => exact absurd ht hne
  | cons t ts =>
    have hfirst : l.tokens[0]? = some t := by
      rw [ht]
      rfl
    obtain ⟨w, hplace, -, -, horigin⟩ := exists_word_of_token h hfirst
    exact ⟨w, hplace, horigin⟩

namespace SourceStatement

/-- A statement of a source text starts at the first word of a line, and its label and its operand
are free of blanks. -/
theorem of_mem_ofSource {statements : List SourceStatement} {s : SourceStatement}
    (h : ofSource source file commentChars = .ok statements) (hs : s ∈ statements) :
    (∃ w : SourceWord source commentChars, w.place = 0 ∧ w.origin file = s.origin) ∧
      ∀ text, s.label = some text ∨ s.operand = some text →
        ∀ c ∈ text.toList, Text.isBlank c = false := by
  obtain ⟨l, hl, hread⟩ := exists_of_mem_mapM h hs
  obtain ⟨horigin, hparts⟩ := ofTokens_eq_ok hread
  refine ⟨horigin ▸ CodeLine.exists_first_word hl, ?_⟩
  intro text htext
  obtain ⟨t, ht, rfl⟩ := hparts text htext
  obtain ⟨-, -, htokens, -⟩ := CodeLine.of_mem_scan hl
  rw [htokens] at ht
  exact Token.not_blank_of_mem_scan ht

/-- A source text that cannot be read is refused at the first word of a line, or at a mnemonic. -/
theorem ofSource_eq_error {d : Diagnostic} (h : ofSource source file commentChars = .error d) :
    ∃ w : SourceWord source commentChars, w.origin file = d.origin ∧
      (w.place = 0 ∧ (∃ count, d.problem = .fieldCount count) ∨
        w.place = mnemonicPlace w.count ∧ Operation.ofMnemonic? w.text = none ∧
          d.problem = .unknownMnemonic w.text) := by
  obtain ⟨l, hl, hread⟩ := exists_of_mapM_eq_error h
  rcases ofTokens_eq_error hread with rfl | ⟨t, ht, hunknown, rfl⟩
  · obtain ⟨w, hplace, horigin⟩ := CodeLine.exists_first_word hl
    exact ⟨w, horigin, Or.inl ⟨hplace, _, rfl⟩⟩
  · obtain ⟨w, hplace, hcount, htext, horigin⟩ := CodeLine.exists_word_of_token hl ht
    refine ⟨w, horigin, Or.inr ⟨?_, ?_, ?_⟩⟩
    · rw [hplace, hcount]
    · rw [htext, hunknown]
    · rw [htext]

end SourceStatement

end Source

/-! ## Lines of an operation and an operand -/

theorem Operation.not_blank_of_mem_mnemonic (op : Operation) :
    ∀ c ∈ op.mnemonic.toList, Text.isBlank c = false := by
  have hall : op.mnemonic.toList.all (fun c => !Text.isBlank c) = true := by
    rcases op with op | op | op | op <;> cases op <;> decide
  intro c hc
  simpa using List.all_eq_true.1 hall c hc

theorem Operation.mnemonic_ne_nil (op : Operation) : op.mnemonic.toList ≠ [] := by
  rcases op with op | op | op | op <;> cases op <;> decide

namespace SourceStatement

/-- The statement of a line that has an operation and an operand, one blank apart. -/
def ofOperand (op : Operation) (operand : String) (number : Nat) (file : Option String) :
    SourceStatement :=
  ⟨⟨none, op, some operand, false⟩,
    ⟨some ⟨file, some number, 1⟩, some (op.mnemonic ++ " " ++ operand)⟩⟩

section Operand

variable (op : Operation) {operand : String} (hne : operand.toList ≠ [])
  (hoperand : ∀ c ∈ operand.toList, Text.isBlank c = false) (number : Nat) (file : Option String)

include hne hoperand

theorem scan_operand :
    Token.scan (op.mnemonic ++ " " ++ operand) (some number) file =
      [⟨op.mnemonic, some number, 1, file⟩,
       ⟨operand, some number, (1 + op.mnemonic.toList.length + 1 : Nat), file⟩] := by
  have hwords : Token.wordsFrom 1 [] (op.mnemonic ++ " " ++ operand).toList =
      [(1, op.mnemonic.toList), (1 + op.mnemonic.toList.length + 1, operand.toList)] := by
    rw [String.toList_append, String.toList_append, List.append_assoc]
    show Token.wordsFrom 1 [] (op.mnemonic.toList ++ ' ' :: operand.toList) = _
    rw [Token.wordsFrom_word_blank op.mnemonic_ne_nil op.not_blank_of_mem_mnemonic rfl,
      Token.wordsFrom_word hne hoperand]
  rw [Token.scan, hwords]
  simp only [List.map_cons, List.map_nil, String.ofList_toList]
  rfl

theorem ofTokens_operand :
    ofTokens (Token.scan (op.mnemonic ++ " " ++ operand) (some number) file) (some number) file
      (op.mnemonic ++ " " ++ operand) = .ok (ofOperand op operand number file) := by
  have hread : Operation.read op.mnemonic
      ⟨some ⟨file, some number, 1⟩, some (op.mnemonic ++ " " ++ operand)⟩ = .ok op := by
    rw [Operation.read, Operation.ofMnemonic?_mnemonic]
    rfl
  rw [scan_operand op hne hoperand]
  unfold ofTokens
  simp only [Shape.ofTokens?, Token.location, hread]
  rfl

theorem ofLine_operand :
    ofLine (.text (op.mnemonic ++ " " ++ operand)) (some number) file none =
      .ok (ofOperand op operand number file) :=
  ofTokens_operand op hne hoperand number file

/-- A source text of one line without a comment is read as that line. -/
theorem ofSource_operand {commentChars : String}
    (hcomment : ∀ c ∈ (op.mnemonic ++ " " ++ operand).toList, c ∉ commentChars.toList) :
    ofSource (op.mnemonic ++ " " ++ operand) file commentChars =
      .ok [ofOperand op operand 1 file] := by
  have hbreak : ∀ c ∈ (op.mnemonic ++ " " ++ operand).toList, Text.isBreak c = false := by
    intro c hc
    rw [String.toList_append, String.toList_append, List.mem_append, List.mem_append] at hc
    rcases hc with (hc | hc) | hc
    · exact Text.not_break_of_not_blank (op.not_blank_of_mem_mnemonic c hc)
    · rw [List.mem_singleton.1 hc]
      decide
    · exact Text.not_break_of_not_blank (hoperand c hc)
  have hline : (op.mnemonic ++ " " ++ operand).toList ≠ [] := by
    rw [String.toList_append]
    exact List.append_ne_nil_of_right_ne_nil _ hne
  have hlines : Text.lines (op.mnemonic ++ " " ++ operand) = [op.mnemonic ++ " " ++ operand] := by
    rw [Text.lines, Text.linesFrom_of_not_break (Or.inr hline) hbreak, List.reverse_nil,
      List.nil_append, List.map_singleton, String.ofList_toList]
  have hcode : CodeLine.withoutComment commentChars (op.mnemonic ++ " " ++ operand) =
      op.mnemonic ++ " " ++ operand := by
    rw [CodeLine.withoutComment, List.takeWhile_eq_self_iff.2, String.ofList_toList]
    simpa using hcomment
  have hscan : CodeLine.scan (op.mnemonic ++ " " ++ operand) file commentChars =
      [⟨1, op.mnemonic ++ " " ++ operand,
        Token.scan (op.mnemonic ++ " " ++ operand) (some (1 : Nat)) file⟩] := by
    have htokens := scan_operand op hne hoperand 1 file
    rw [CodeLine.scan, hlines]
    simp only [List.zipIdx_cons, List.zipIdx_nil, List.filterMap_cons, List.filterMap_nil,
      CodeLine.ofText?, hcode, htokens]
  rw [ofSource, hscan, List.mapM_cons, ofTokens_operand op hne hoperand 1 file]
  rfl

end Operand

end SourceStatement

end TwoPass
