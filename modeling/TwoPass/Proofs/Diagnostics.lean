import TwoPass.Proofs.Numerals
import TwoPass.Proofs.Reading
import TwoPass.Proofs.Refusals
import TwoPass.Proofs.Sessions

/-!
# Diagnostics

A diagnostic of a source text stands at a word of it: at an unknown mnemonic, or else at the first
word of the line it is about. Its message has that line below its head, and below that a mark under
the first character of the word.
-/

namespace TwoPass

theorem mem_of_mem_throughEnd {p : List SourceStatement} {s : SourceStatement}
    (h : s ∈ throughEnd p) : s ∈ p := by
  induction p with
  | nil => cases h
  | cons t p ih =>
    rw [throughEnd] at h
    split at h
    · rw [List.mem_singleton.1 h]
      exact List.mem_cons_self
    · rcases List.mem_cons.1 h with rfl | h
      · exact List.mem_cons_self
      · exact List.mem_cons_of_mem t (ih h)

namespace SourceStatement

variable {s : SourceStatement} {settings : Settings} {labels : LabelTable} {d : Diagnostic}

/-- What the passes can have to say against a statement. -/
inductive Reports (s : SourceStatement) : Problem → Prop
  | overflow (address : Nat) : Reports s (.counterOverflow address)
  | operandMissing : s.operand = none → Reports s (.operandMissing s.op)
  | addressMissing : s.operand = none → Reports s (.addressMissing s.op)
  | badLiteral {text : String} {flaw : LiteralFlaw} : s.operand = some text →
      (∀ reason, flaw ≠ .other reason) → Reports s (.badLiteral s.op.mnemonic text flaw)
  | undefinedLabel {label : String} (similar : List String) : s.operand = some label →
      Reports s (.undefinedLabel label similar none)
  | duplicateLabel {label : String} (first : Option Location) : s.label = some label →
      Reports s (.duplicateLabel label first)

theorem hexOperand_reports (h : s.hexOperand = .error d) :
    d.origin = s.origin ∧ s.Reports d.problem := by
  unfold hexOperand at h
  cases ho : s.operand with
  | none =>
    simp only [ho] at h
    cases h
    exact ⟨rfl, .operandMissing ho⟩
  | some text =>
    simp only [ho] at h
    split at h
    · split at h
      · cases h
      · cases h
        exact ⟨rfl, .badLiteral ho nofun⟩
    · cases h
      exact ⟨rfl, .badLiteral ho nofun⟩

theorem decimalOperand_reports (h : s.decimalOperand = .error (.diagnostic d)) :
    d.origin = s.origin ∧ s.Reports d.problem := by
  cases ho : s.operand with
  | none =>
    unfold decimalOperand at h
    simp only [ho] at h
    cases h
    exact ⟨rfl, .operandMissing ho⟩
  | some text =>
    rw [decimalOperand_of_some ho] at h
    split at h
    · split at h
      · cases h
      · split at h
        · cases h
        · cases h
          exact ⟨rfl, .badLiteral ho nofun⟩
    · cases h
      exact ⟨rfl, .badLiteral ho nofun⟩

theorem referredAddress_reports (h : s.referredAddress settings labels = .error d) :
    d.origin = s.origin ∧ s.Reports d.problem := by
  unfold referredAddress at h
  cases ho : s.operand with
  | none =>
    simp only [ho] at h
    split at h
    · cases h
      exact ⟨rfl, .addressMissing ho⟩
    · cases h
  | some label =>
    simp only [ho] at h
    split at h
    · cases h
    · split at h
      · cases h
        exact ⟨rfl, .undefinedLabel _ ho⟩
      · cases h

theorem encode_reports (hs : s.Stores) (h : s.encode settings labels = .error (.diagnostic d)) :
    d.origin = s.origin ∧ s.Reports d.problem := by
  rcases (encode_eq_error_iff hs).1 h with ⟨-, hd⟩ | ⟨-, d', hd, heq⟩ | ⟨-, d', hd, heq⟩
  · exact decimalOperand_reports hd
  · cases heq
    exact hexOperand_reports hd
  · cases heq
    exact referredAddress_reports hd

end SourceStatement

theorem Layout.Refusal.reports {settings : Settings} {before : List SourceStatement}
    {s : SourceStatement} {d : Diagnostic} (h : Refusal settings before s d) :
    d.origin = s.origin ∧ s.Reports d.problem := by
  cases h with
  | origin _ hd => exact SourceStatement.hexOperand_reports hd
  | overflow _ _ => exact ⟨rfl, .overflow _⟩
  | duplicate _ _ _ hlabel _ _ _ => exact ⟨rfl, .duplicateLabel _ hlabel⟩

/-- Whatever stops an assembly, except for a numeral that is too long, is reported at a statement of
the program. -/
theorem Assembly.reports_of_assemble {settings : Settings} {p : List SourceStatement}
    {d : Diagnostic} (h : assemble settings p = .error (.diagnostic d)) :
    ∃ s ∈ p, d.origin = s.origin ∧ s.Reports d.problem := by
  cases hl : (ofStatements p).layOut settings with
  | error d' =>
    obtain ⟨k, ⟨s, hk, hs⟩, -⟩ := refusalAt_of_layOut hl
    have hsame := assemble_of_layOut_eq_error hl
    rw [show (ofStatements p).statements = p from rfl, h] at hsame
    cases hsame
    exact ⟨s, mem_of_mem_throughEnd (List.mem_of_getElem? hk), hs.reports⟩
  | ok b =>
    obtain ⟨k, s, hk, hstores, hencode, -⟩ := encode_eq_error_of_assemble hl h
    exact ⟨s, mem_of_mem_throughEnd (List.mem_of_getElem? hk),
      SourceStatement.encode_reports hstores hencode⟩

/-! ## Texts of one line -/

/-- A text without a line feed. -/
def OneLine (text : String) : Prop :=
  '\n' ∉ text.toList

instance (text : String) : Decidable (OneLine text) :=
  inferInstanceAs (Decidable ('\n' ∉ text.toList))

theorem OneLine.append {a b : String} (ha : OneLine a) (hb : OneLine b) : OneLine (a ++ b) := by
  unfold OneLine
  rw [String.toList_append, List.mem_append]
  exact not_or.2 ⟨ha, hb⟩

theorem oneLine_of_not_blank {text : String} (h : ∀ c ∈ text.toList, Text.isBlank c = false) :
    OneLine text := by
  intro hc
  have hblank := h '\n' hc
  exact absurd hblank (by decide)

theorem oneLine_padded {base : Nat} (hb : 1 < base) (hle : base ≤ 16) (width n : Nat) :
    OneLine (Numeral.padded base width n) := by
  intro hc
  obtain ⟨d, hd, hdigit⟩ := Numeral.exists_digit_of_mem_padded hb hc
  have hupper := Numeral.isUpperHexDigit_digit (Nat.lt_of_lt_of_le hd hle)
  rw [← hdigit] at hupper
  exact absurd hupper (by decide)

theorem oneLine_mnemonic (op : Operation) : OneLine op.mnemonic := by
  rcases op with op | op | op | op <;> cases op <;> decide

theorem LiteralFlaw.oneLine_message {flaw : LiteralFlaw} (h : ∀ reason, flaw ≠ .other reason) :
    OneLine flaw.message := by
  cases flaw with
  | notHexadecimal => decide
  | aboveWord => decide
  | notDecimal => decide
  | outsideRange => decide
  | other reason => exact absurd rfl (h reason)

theorem SourceStatement.Reports.oneLine_summary {s : SourceStatement} {p : Problem}
    (h : s.Reports p)
    (hs : ∀ text, s.label = some text ∨ s.operand = some text → OneLine text) :
    OneLine p.summary := by
  cases h with
  | overflow address =>
    have hnumeral := oneLine_padded (by decide : 1 < 16) (by decide) 0 address
    exact (OneLine.append (.append (by decide) hnumeral) (by decide)).append (by decide)
  | operandMissing _ => exact (oneLine_mnemonic s.op).append (by decide)
  | addressMissing _ => exact (oneLine_mnemonic s.op).append (by decide)
  | badLiteral hoperand hflaw =>
    have hliteral := hs _ (Or.inr hoperand)
    have hinvalid := OneLine.append (by decide : OneLine "invalid ") (oneLine_mnemonic s.op)
    exact (((hinvalid.append (by decide)).append hliteral).append (by decide)).append
      (LiteralFlaw.oneLine_message hflaw)
  | undefinedLabel _ hoperand =>
    exact (OneLine.append (by decide) (hs _ (Or.inr hoperand))).append (by decide)
  | duplicateLabel _ hlabel =>
    exact (OneLine.append (by decide) (hs _ (Or.inl hlabel))).append (by decide)

theorem SourceStatement.Reports.kind_ne {s : SourceStatement} {p : Problem} (h : s.Reports p) :
    p.kind ≠ .unknownMnemonic := by
  cases h <;> nofun

/-! ## Messages -/

theorem splitOn_row {row : List Char} (h : '\n' ∉ row) (tail : List Char) :
    (row ++ ['\n'] ++ tail).splitOn '\n' = row :: tail.splitOn '\n' := by
  rw [List.append_assoc, List.singleton_append, List.splitOn_append_cons_self_of_not_mem h]

/-- Rows without a line feed are found again at the head of a text that they open. -/
theorem exists_splitOn_intercalate {rows : List (List Char)} (hne : rows ≠ [])
    (hrows : ∀ row ∈ rows, '\n' ∉ row) (rest : List (List Char)) :
    ∃ more, (['\n'].intercalate (rows ++ rest)).splitOn '\n' = rows ++ more := by
  induction rows with
  | nil => exact absurd rfl hne
  | cons row rows ih =>
    have hhead : '\n' ∉ row := hrows row List.mem_cons_self
    cases rows with
    | cons row' rows =>
      -- a row with another after it is cut off by the line feed between them
      obtain ⟨more, hmore⟩ := ih nofun fun r hr => hrows r (List.mem_cons_of_mem row hr)
      refine ⟨more, ?_⟩
      show (['\n'].intercalate (row :: row' :: (rows ++ rest))).splitOn '\n' = _
      rw [List.intercalate_cons_cons, splitOn_row hhead]
      exact congrArg (row :: ·) hmore
    | nil =>
      -- the last of the rows ends the text or is followed by one that may hold line feeds
      cases rest with
      | nil =>
        refine ⟨[], ?_⟩
        show (['\n'].intercalate [row]).splitOn '\n' = [row]
        exact List.splitOn_intercalate '\n' hrows nofun
      | cons r rest =>
        refine ⟨(['\n'].intercalate (r :: rest)).splitOn '\n', ?_⟩
        show (['\n'].intercalate (row :: r :: rest)).splitOn '\n' = _
        rw [List.intercalate_cons_cons, splitOn_row hhead]
        rfl

namespace Diagnostic

/-- A message that quotes a line, four blanks in, on its second line and has a mark on its third,
right below an index of the quoted line. -/
def Marks (message line : String) (index : Nat) : Prop :=
  ∃ head rest, message.toList.splitOn '\n' =
    head :: (List.replicate 4 ' ' ++ line.toList) ::
      (List.replicate (4 + index) ' ' ++ ['^']) :: rest

theorem oneLine_location {file : String} (h : OneLine file) (number column : Nat) :
    OneLine (Location.text ⟨some file, some (number : Int), (column : Int)⟩) := by
  have hnumeral : ∀ n : Nat, OneLine (Numeral.decimal n) :=
    oneLine_padded (by decide) (by decide) 0
  exact ((h.append (by decide)).append (hnumeral number)).append (by decide) |>.append
    (hnumeral column)

section Marks

variable {d : Diagnostic} {file line : String} {number index : Nat}

theorem message_rows
    (horigin : d.origin = ⟨some ⟨some file, some (number : Int), (index + 1 : Nat)⟩, some line⟩)
    (hfile : OneLine file) (hsummary : OneLine d.problem.summary) :
    ∃ head advice, OneLine head ∧
      d.message = "\n".intercalate (head :: ("    " ++ line) ::
        String.ofList (List.replicate (4 + index) ' ' ++ ['^']) :: advice) := by
  have hmargin : margin ⟨some file, some (number : Int), (index + 1 : Nat)⟩ = 4 + index := by
    show ((4 : Int) + (index + 1 : Nat) - 1).toNat = 4 + index
    omega
  have hcolumn : (0 : Int) < (index + 1 : Nat) := by omega
  have hhead : OneLine (Location.text ⟨some file, some (number : Int), (index + 1 : Nat)⟩ ++ ": " ++
      ("error: " ++ d.problem.summary)) :=
    ((oneLine_location hfile number (index + 1)).append (by decide)).append
      (.append (by decide) hsummary)
  unfold message excerpt
  simp only [horigin, hmargin, if_pos hcolumn]
  exact ⟨_, _, hhead, rfl⟩

theorem marks_message
    (horigin : d.origin = ⟨some ⟨some file, some (number : Int), (index + 1 : Nat)⟩, some line⟩)
    (hfile : OneLine file) (hline : OneLine line) (hsummary : OneLine d.problem.summary) :
    Marks d.message line index := by
  obtain ⟨head, advice, hhead, hmessage⟩ := message_rows horigin hfile hsummary
  have hindent : ("    " ++ line).toList = List.replicate 4 ' ' ++ line.toList :=
    String.toList_append
  have hquoted : '\n' ∉ List.replicate 4 ' ' ++ line.toList := by
    rw [← hindent]
    exact OneLine.append (by decide) hline
  have hmark : '\n' ∉ List.replicate (4 + index) ' ' ++ ['^'] := by
    rw [List.mem_append, List.mem_replicate, List.mem_singleton]
    rintro (⟨-, hc⟩ | hc) <;> exact absurd hc (by decide)
  have hrows : ∀ row ∈ [head.toList, List.replicate 4 ' ' ++ line.toList,
      List.replicate (4 + index) ' ' ++ ['^']], '\n' ∉ row :=
    List.forall_mem_cons.2 ⟨hhead, List.forall_mem_cons.2 ⟨hquoted,
      List.forall_mem_singleton.2 hmark⟩⟩
  obtain ⟨rest, hrest⟩ :=
    exists_splitOn_intercalate (List.cons_ne_nil _ _) hrows (advice.map String.toList)
  have hcaret : (String.ofList (List.replicate (4 + index) ' ' ++ ['^'])).toList =
      List.replicate (4 + index) ' ' ++ ['^'] := String.toList_ofList
  refine ⟨head.toList, rest, ?_⟩
  rw [hmessage, String.toList_intercalate, List.map_cons, List.map_cons, List.map_cons, hindent,
    hcaret]
  exact hrest

end Marks

end Diagnostic

theorem Text.oneLine_of_mem_lines {source line : String} (h : line ∈ lines source) :
    OneLine line := by
  obtain ⟨cs, hcs, rfl⟩ := List.mem_map.1 h
  intro hc
  rw [String.toList_ofList] at hc
  have hbreak := not_break_of_mem_linesFrom (fun c hc => absurd hc List.not_mem_nil) hcs '\n' hc
  exact absurd hbreak (by decide)

theorem SourceWord.oneLine_text {source commentChars : String}
    (w : SourceWord source commentChars) : OneLine w.text := by
  refine oneLine_of_not_blank fun c hc => ?_
  rw [text, String.toList_ofList] at hc
  exact Token.not_blank_of_mem_wordAt hc

/-- Where the diagnostics of a source text stand, and that they are told on one line. -/
theorem Assembly.exists_word_of_ofReading {settings : Settings} {source : String}
    {file : Option String} {d : Diagnostic}
    (h : ofReading settings (SourceStatement.ofSource source file settings.commentChars) =
      .error (.fault (.diagnostic d))) :
    OneLine d.problem.summary ∧
    ∃ w : SourceWord source settings.commentChars, w.origin file = d.origin ∧
      (w.place = 0 ∧ d.problem.kind ≠ .unknownMnemonic ∨
        w.place = mnemonicPlace w.count ∧ Operation.ofMnemonic? w.text = none ∧
          d.problem = .unknownMnemonic w.text) := by
  obtain ⟨f, hf, ⟨d', hread, rfl⟩ | ⟨p, hread, hp⟩⟩ := ofReading_eq_error h
  · cases hf
    obtain ⟨w, horigin, ⟨hplace, count, hproblem⟩ | ⟨hplace, hunknown, hproblem⟩⟩ :=
      SourceStatement.ofSource_eq_error hread
    · rw [hproblem]
      refine ⟨?_, w, horigin, Or.inl ⟨hplace, nofun⟩⟩
      exact OneLine.append (by decide) (oneLine_padded (by decide) (by decide) 0 count)
    · refine ⟨?_, w, horigin, Or.inr ⟨hplace, hunknown, hproblem⟩⟩
      rw [hproblem]
      exact (OneLine.append (by decide) w.oneLine_text).append (by decide)
  · cases hf
    obtain ⟨s, hs, horigin, hreports⟩ := reports_of_assemble hp
    obtain ⟨⟨w, hplace, hword⟩, hparts⟩ := SourceStatement.of_mem_ofSource hread hs
    refine ⟨?_, w, hword.trans horigin.symm, Or.inl ⟨hplace, hreports.kind_ne⟩⟩
    exact hreports.oneLine_summary fun text htext => oneLine_of_not_blank (hparts text htext)

/-- A diagnostic of a source text points at a word of it. It names a line of the text, which it
quotes, and the column at which a word of that line starts before any comment: an unknown mnemonic
in its place among the words, or else the first of them. Its message has the line below its head,
and below that a mark under the first character of the word. -/
theorem Session.diagnostic_marks_word (s : Session) {source name : String} {d : Diagnostic}
    (hname : OneLine name)
    (h : (s.assembleSource source (some name)).2.result = .error (.fault (.diagnostic d))) :
    ∃ w : SourceWord source s.settings.commentChars,
      d.origin =
        ⟨some ⟨some name, some (w.number : Int), (w.index + 1 : Nat)⟩, some w.line⟩ ∧
      1 ≤ w.number ∧ w.number ≤ (Text.lines source).length ∧
      (Text.lines source)[w.number - 1]? = some w.line ∧
      Token.startsAt w.line.toList w.index = true ∧
      (∀ c ∈ w.line.toList.take (w.index + 1), c ∉ s.settings.commentChars.toList) ∧
      (d.problem.kind ≠ .unknownMnemonic → w.place = 0) ∧
      (d.problem.kind = .unknownMnemonic → w.place = mnemonicPlace w.count ∧
        Operation.ofMnemonic? w.text = none ∧ d.problem = .unknownMnemonic w.text) ∧
      Diagnostic.Marks d.message w.line w.index := by
  have hreading := (s.assembleSource_result source (some name)).symm.trans h
  obtain ⟨hsummary, w, horigin, hplace⟩ := Assembly.exists_word_of_ofReading hreading
  obtain ⟨hstart, hcomment⟩ := CodeLine.of_mem_wordStarts (List.mem_of_getElem? w.isStart)
  have hline : OneLine w.line := Text.oneLine_of_mem_lines (List.mem_of_getElem? w.isLine)
  refine ⟨w, horigin.symm, w.one_le_number, w.number_le, w.isLine, hstart, hcomment, ?_, ?_,
    Diagnostic.marks_message horigin.symm hname hline hsummary⟩
  · intro hkind
    rcases hplace with ⟨hplace, -⟩ | ⟨-, -, hproblem⟩
    · exact hplace
    · rw [hproblem] at hkind
      exact absurd rfl hkind
  · intro hkind
    rcases hplace with ⟨-, hother⟩ | hunknown
    · exact absurd hkind hother
    · exact hunknown

/-- A comment, an empty line, and a line whose second word of three is no mnemonic. -/
def misspelled : String :=
  "; sum\n\n  A lda X ; low\n"

theorem Session.diagnostic_marks_word_misspelled :
    ∃ (d : Diagnostic) (w : SourceWord misspelled ";/"),
      (({} : Session).assembleSource misspelled (some "sum.asm")).2.result =
        .error (.fault (.diagnostic d)) ∧
      w.number = 3 ∧ w.index = 4 ∧ w.place = 1 ∧ w.text = "lda" ∧
      Diagnostic.Marks d.message "  A lda X ; low" 4 := by
  have hname : OneLine "sum.asm" := by decide
  have h : (({} : Session).assembleSource misspelled (some "sum.asm")).2.result =
      .error (.fault (.diagnostic ⟨.unknownMnemonic "lda",
        ⟨some ⟨some "sum.asm", some 3, 5⟩, some "  A lda X ; low"⟩⟩)) := rfl
  obtain ⟨w, horigin, -, -, -, -, -, -, hmnemonic, hmarks⟩ := diagnostic_marks_word {} hname h
  obtain ⟨hplace, -, htext⟩ := hmnemonic rfl
  have hline : "  A lda X ; low" = w.line := Option.some.inj (congrArg Origin.source horigin)
  have hlocation := Option.some.inj (congrArg Origin.location horigin)
  have hnumber : (3 : Int) = w.number := Option.some.inj (congrArg Location.line hlocation)
  have hindex : (5 : Int) = (w.index + 1 : Nat) := congrArg Location.column hlocation
  have hfour : w.index = 4 := by omega
  have hcount : w.count = 3 := by
    rw [SourceWord.count, ← hline]
    rfl
  refine ⟨_, w, h, by omega, hfour, ?_, (Problem.unknownMnemonic.inj htext).symm, ?_⟩
  · rw [hplace, hcount]
    rfl
  · rw [← hline, hfour] at hmarks
    exact hmarks

end TwoPass
