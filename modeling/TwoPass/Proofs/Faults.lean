import TwoPass.Command.Outcome
import TwoPass.Proofs.Diagnostics

/-!
# Faults

What can come of a source text: an assembly, a diagnostic, or the fault of a decimal numeral that
has more digits than are read. That fault is no diagnostic, and a command that meets it reports an
error of its own.
-/

namespace TwoPass

namespace SourceStatement

variable {s : SourceStatement} {settings : Settings} {labels : LabelTable} {digits : Nat}

/-- A decimal word whose numeral has more digits than are read. -/
def IsOverlong (s : SourceStatement) (digits : Nat) : Prop :=
  s.op = .directive .decimal ∧ maxDigits < digits ∧
    ∃ text, s.operand = some text ∧ isDecimalNumeral (splitSign text.toList).2 = true ∧
      (splitSign text.toList).2.length = digits

theorem decimalOperand_of_isOverlong (h : s.IsOverlong digits) :
    s.decimalOperand = .error (.numeralTooLong digits) := by
  obtain ⟨-, hlong, text, hoperand, hnumeral, rfl⟩ := h
  rw [decimalOperand_of_some hoperand, if_pos hnumeral, if_pos hlong]

theorem isOverlong_of_decimalOperand (hop : s.op = .directive .decimal)
    (h : s.decimalOperand = .error (.numeralTooLong digits)) : s.IsOverlong digits := by
  cases ho : s.operand with
  | none =>
    unfold decimalOperand at h
    simp only [ho] at h
    cases h
  | some text =>
    rw [decimalOperand_of_some ho] at h
    split at h
    · rename_i hnumeral
      split at h
      · rename_i hlong
        cases h
        exact ⟨hop, hlong, text, ho, hnumeral, rfl⟩
      · split at h <;> cases h
    · cases h

theorem IsOverlong.stores (h : s.IsOverlong digits) : s.Stores := by
  unfold Stores
  rw [h.1]
  exact ⟨nofun, nofun⟩

theorem encode_eq_numeralTooLong_iff (hs : s.Stores) :
    s.encode settings labels = .error (.numeralTooLong digits) ↔ s.IsOverlong digits := by
  rw [encode_eq_error_iff hs]
  constructor
  · rintro (⟨hop, hf⟩ | ⟨-, d, -, hf⟩ | ⟨-, d, -, hf⟩)
    · exact isOverlong_of_decimalOperand hop hf
    · cases hf
    · cases hf
  · intro h
    exact Or.inl ⟨h.1, decimalOperand_of_isOverlong h⟩

theorem IsOverlong.unencodable (h : s.IsOverlong digits) (settings : Settings)
    (p : List SourceStatement) : Unencodable settings p s := by
  refine Or.inl ⟨h.1, ?_⟩
  exact decimalOperand_eq_error_iff.1 ⟨_, decimalOperand_of_isOverlong h⟩

end SourceStatement

namespace Assembly

variable {settings : Settings} {p : List SourceStatement} {digits : Nat}

/-- Nothing in a program is refused before one of its decimal numerals, which has too many digits:
no statement is, for its place, and none before that numeral for its encoding. -/
def StopsAtNumeral (settings : Settings) (p : List SourceStatement) (digits : Nat) : Prop :=
  (∀ k, ¬ Layout.RefusedAt settings (throughEnd p) k) ∧
    ∃ (k : Nat) (s : SourceStatement), (throughEnd p)[k]? = some s ∧ s.IsOverlong digits ∧
      ∀ j < k, ∀ t : SourceStatement, (throughEnd p)[j]? = some t →
        ¬ Unencodable settings (throughEnd p) t

theorem stopsAtNumeral_of_assemble (h : assemble settings p = .error (.numeralTooLong digits)) :
    StopsAtNumeral settings p digits := by
  cases hl : (ofStatements p).layOut settings with
  | error d =>
    have hd := assemble_of_layOut_eq_error hl
    rw [show (ofStatements p).statements = p from rfl, h] at hd
    cases hd
  | ok b =>
    refine ⟨?_, ?_⟩
    · intro k hk
      obtain ⟨d, hd⟩ := (layOut_eq_error_iff (a := ofStatements p)).2 ⟨k, hk⟩
      rw [hl] at hd
      cases hd
    · obtain ⟨k, s, hk, hstores, hencode, hbefore⟩ := encode_eq_error_of_assemble hl h
      refine ⟨k, s, hk, (SourceStatement.encode_eq_numeralTooLong_iff hstores).1 hencode, ?_⟩
      intro j hj t ht hbad
      obtain ⟨r, hr⟩ := hbefore j hj t ht hbad.stores
      obtain ⟨f, hf⟩ := (encode_eq_error_after_layOut hl hbad.stores).2 hbad
      rw [hr] at hf
      cases hf

theorem assemble_of_stopsAtNumeral (h : StopsAtNumeral settings p digits) :
    assemble settings p = .error (.numeralTooLong digits) := by
  obtain ⟨hplaced, k, s, hk, hlong, hbefore⟩ := h
  have hbad := hlong.unencodable settings (throughEnd p)
  obtain ⟨f, hf⟩ : ∃ f, assemble settings p = .error f :=
    (assemble_eq_error_iff (a := ofStatements p)).2 (Or.inr ⟨s, List.mem_of_getElem? hk, hbad⟩)
  cases hl : (ofStatements p).layOut settings with
  | error d =>
    obtain ⟨k', hk'⟩ := layOut_eq_error_iff.1 ⟨d, hl⟩
    exact absurd hk' (hplaced k')
  | ok b =>
    -- the statement that stops the second pass is the first that cannot be encoded, so it is `s`
    obtain ⟨k', s', hk', hstores, hencode, hfirst⟩ := encode_eq_error_of_assemble hl hf
    have hoverlong : s.encode settings b.labels = .error (.numeralTooLong digits) :=
      (SourceStatement.encode_eq_numeralTooLong_iff hlong.stores).2 hlong
    have hle : k' ≤ k := by
      by_contra hlt
      obtain ⟨r, hr⟩ := hfirst k (by omega) s hk hlong.stores
      rw [hoverlong] at hr
      cases hr
    have hge : k ≤ k' := by
      by_contra hlt
      exact hbefore k' (by omega) s' hk' ((encode_eq_error_after_layOut hl hstores).1 ⟨f, hencode⟩)
    have hindex : k' = k := by omega
    have hsame : s' = s := by
      rw [hindex] at hk'
      exact Option.some.inj (hk'.symm.trans hk)
    rw [hsame, hoverlong] at hencode
    rw [hf, Except.error.inj hencode]

section Reading

variable {reading : Except Diagnostic (List SourceStatement)}

theorem ofReading_eq_numeralTooLong_iff :
    ofReading settings reading = .error (.fault (.numeralTooLong digits)) ↔
      ∃ p, reading = .ok p ∧ StopsAtNumeral settings p digits := by
  constructor
  · intro h
    obtain ⟨f, hf, ⟨d, -, rfl⟩ | ⟨p, hread, hp⟩⟩ := ofReading_eq_error h
    · cases hf
    · cases hf
      exact ⟨p, hread, stopsAtNumeral_of_assemble hp⟩
  · rintro ⟨p, rfl, hstops⟩
    rw [ofReading, assemble_of_stopsAtNumeral hstops]
    rfl

theorem exists_fault_of_ofReading {e : Failure} (h : ofReading settings reading = .error e) :
    (∃ d, e = .fault (.diagnostic d)) ∨ ∃ digits, e = .fault (.numeralTooLong digits) := by
  obtain ⟨f, rfl, -⟩ := ofReading_eq_error h
  cases f with
  | diagnostic d => exact Or.inl ⟨d, rfl⟩
  | numeralTooLong digits => exact Or.inr ⟨digits, rfl⟩

end Reading

/-- The problems of a source text: the fields of a line, a mnemonic, or what the passes report about
a statement that was read. -/
def IsSourceProblem (reading : Except Diagnostic (List SourceStatement)) (problem : Problem) :
    Prop :=
  (∃ count, problem = .fieldCount count) ∨
  (∃ word, Operation.ofMnemonic? word = none ∧ problem = .unknownMnemonic word) ∨
  ∃ p, reading = .ok p ∧ ∃ s ∈ p, s.Reports problem

theorem isSourceProblem_of_ofReading {source commentChars : String} {file : Option String}
    {d : Diagnostic}
    (h : ofReading settings (SourceStatement.ofSource source file commentChars) =
      .error (.fault (.diagnostic d))) :
    IsSourceProblem (SourceStatement.ofSource source file commentChars) d.problem := by
  obtain ⟨f, hf, ⟨d', hread, rfl⟩ | ⟨p, hread, hp⟩⟩ := ofReading_eq_error h
  · cases hf
    obtain ⟨w, -, ⟨-, count, hproblem⟩ | ⟨-, hunknown, hproblem⟩⟩ :=
      SourceStatement.ofSource_eq_error hread
    · exact Or.inl ⟨count, hproblem⟩
    · exact Or.inr (Or.inl ⟨w.text, hunknown, hproblem⟩)
  · cases hf
    obtain ⟨s, hs, -, hreports⟩ := reports_of_assemble hp
    exact Or.inr (Or.inr ⟨p, hread, s, hs, hreports⟩)

end Assembly

/-- The parts of a statement make that statement again. -/
theorem SourceStatement.ofParts_parts (s : SourceStatement) :
    ofParts s.label s.op.mnemonic s.operand s.op.toClass.name s.indirect s.origin = .ok s := by
  have hclass : OperationClass.ofName s.op.toClass.name = .ok s.op.toClass := by
    cases s.op.toClass <;> rfl
  have hread : Operation.read s.op.mnemonic = .ok s.op := by
    rw [Operation.read, Operation.ofMnemonic?_mnemonic]
    rfl
  unfold ofParts
  simp only [hclass, hread, if_true]

/-- What comes of a source text under any settings. It is assembled, or refused with a diagnostic,
or it has a decimal numeral of too many digits and nothing before that to refuse it for. Only the
last makes a command end with an error of its own. Each statement that is read has the class of its
mnemonic, and each word its sixteen digits. -/
theorem Session.source_faults_exact (s : Session) (source : String) (file : Option String) :
    ((∃ a, (s.assembleSource source file).2.result = .ok a) ∨
      (∃ d, (s.assembleSource source file).2.result = .error (.fault (.diagnostic d)) ∧
        Assembly.IsSourceProblem
          (SourceStatement.ofSource source file s.settings.commentChars) d.problem) ∨
      ∃ digits, (s.assembleSource source file).2.result =
        .error (.fault (.numeralTooLong digits))) ∧
    (∀ digits, (s.assembleSource source file).2.result =
        .error (.fault (.numeralTooLong digits)) ↔
      ∃ p, SourceStatement.ofSource source file s.settings.commentChars = .ok p ∧
        Assembly.StopsAtNumeral s.settings p digits) ∧
    (∀ f, (s.assembleSource source file).2.result = .error f →
      ((Command.Trouble.ofFailure f).exitCode = .rejected ↔ ∃ d, f = .fault (.diagnostic d)) ∧
      ((Command.Trouble.ofFailure f).exitCode = .internal ↔
        ∃ digits, f = .fault (.numeralTooLong digits))) ∧
    (∀ p, SourceStatement.ofSource source file s.settings.commentChars = .ok p → ∀ st ∈ p,
      SourceStatement.ofParts st.label st.op.mnemonic st.operand st.op.toClass.name st.indirect
        st.origin = .ok st) ∧
    (∀ a, (s.assembleSource source file).2.result = .ok a →
      ∀ c ∈ a.cells, Word.ofBinary c.word.binary = .ok c.word) := by
  rw [s.assembleSource_result source file]
  refine ⟨?_, fun digits => Assembly.ofReading_eq_numeralTooLong_iff, ?_,
    fun _ _ st _ => st.ofParts_parts, fun _ _ c _ => c.word.ofBinary_binary⟩
  · cases h : Assembly.ofReading s.settings
        (SourceStatement.ofSource source file s.settings.commentChars) with
    | ok a => exact Or.inl ⟨a, rfl⟩
    | error f =>
      rcases Assembly.exists_fault_of_ofReading h with ⟨d, rfl⟩ | ⟨digits, rfl⟩
      · exact Or.inr (Or.inl ⟨d, rfl, Assembly.isSourceProblem_of_ofReading h⟩)
      · exact Or.inr (Or.inr ⟨digits, rfl⟩)
  · intro f hf
    rcases Assembly.exists_fault_of_ofReading hf with ⟨d, rfl⟩ | ⟨digits, rfl⟩
    · refine ⟨⟨fun _ => ⟨d, rfl⟩, fun _ => rfl⟩, nofun, ?_⟩
      rintro ⟨digits, hdigits⟩
      cases hdigits
    · refine ⟨⟨nofun, ?_⟩, fun _ => ⟨digits, rfl⟩, fun _ => rfl⟩
      rintro ⟨d, hd⟩
      cases hd

/-- A numeral of nines. -/
def nines (count : Nat) : String :=
  String.ofList (List.replicate count '9')

theorem toList_nines (count : Nat) : (nines count).toList = List.replicate count '9' :=
  String.toList_ofList

theorem isOverlong_nines {count : Nat} (h : maxDigits < count) (number : Nat)
    (file : Option String) :
    (SourceStatement.ofOperand (.directive .decimal) (nines count) number file).IsOverlong
      count := by
  obtain ⟨rest, rfl⟩ : ∃ rest, count = rest + 1 := ⟨count - 1, by omega⟩
  -- the first nine is no sign, so all of them are digits
  have hsign : splitSign (nines (rest + 1)).toList = (false, List.replicate (rest + 1) '9') := by
    rw [toList_nines, List.replicate_succ]
    rfl
  refine ⟨rfl, h, nines (rest + 1), rfl, ?_, ?_⟩
  · rw [hsign, isDecimalNumeral, List.all_replicate, List.isEmpty_replicate]
    simp only [Nat.add_one_ne_zero, decide_false, Bool.not_false, if_false, Bool.true_and]
    decide
  · rw [hsign, List.length_replicate]

theorem stopsAtNumeral_nines {count : Nat} (h : maxDigits < count) (settings : Settings)
    (file : Option String) :
    Assembly.StopsAtNumeral settings
      [SourceStatement.ofOperand (.directive .decimal) (nines count) 1 file] count := by
  refine ⟨?_, 0, _, rfl, isOverlong_nines h 1 file, fun j hj => absurd hj (Nat.not_lt_zero j)⟩
  rintro k ⟨s, hk, hrefused⟩
  cases k with
  | succ k => cases hk
  | zero =>
    cases hk
    rcases hrefused with ⟨horg, -⟩ | ⟨hover, -⟩ | ⟨-, label, hlabel, -⟩
    · cases horg
    · exact absurd hover (Nat.not_lt_zero wordMax)
    · cases hlabel

/-- A source text whose fault is no diagnostic, so that a command reports an error of its own. -/
theorem Session.long_numeral_internal :
    (({} : Session).assembleSource ("DEC" ++ " " ++ nines 4301) (some defaultFile)).2.result =
      .error (.fault (.numeralTooLong 4301)) ∧
    (Command.Trouble.ofFailure (.fault (.numeralTooLong 4301))).exitCode = .internal := by
  have hne : (nines 4301).toList ≠ [] := by
    rw [toList_nines]
    exact List.cons_ne_nil _ _
  have hblank : ∀ c ∈ (nines 4301).toList, Text.isBlank c = false := by
    intro c hc
    rw [toList_nines] at hc
    rw [List.eq_of_mem_replicate hc]
    decide
  have hcomment : ∀ c ∈ ((Operation.directive .decimal).mnemonic ++ " " ++ nines 4301).toList,
      c ∉ (";/" : String).toList := by
    have hall : ((Operation.directive .decimal).mnemonic ++ " ").toList.all
        (fun c => !(";/" : String).toList.contains c) = true := by decide
    intro c hc
    rw [String.toList_append, List.mem_append, toList_nines] at hc
    rcases hc with hc | hc
    · simpa using List.all_eq_true.1 hall c hc
    · rw [List.eq_of_mem_replicate hc]
      decide
  have hread := SourceStatement.ofSource_operand (.directive .decimal) hne hblank
    (some defaultFile) hcomment
  have hstops := stopsAtNumeral_nines (by decide : maxDigits < 4301) {} (some defaultFile)
  refine ⟨?_, rfl⟩
  rw [assembleSource_result]
  exact Assembly.ofReading_eq_numeralTooLong_iff.2 ⟨_, hread, hstops⟩

end TwoPass
