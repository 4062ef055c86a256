import TwoPass.Proofs.Bindings
import TwoPass.Proofs.Lockstep

/-!
# Refusals

A program is refused for the first statement that has no place: an origin that cannot be read, a
statement beyond the last address, or a label that was defined before. Only a program that can be
laid out is refused for a statement that has no encoding.
-/

namespace TwoPass

namespace Layout

/-- An origin whose operand is missing, is no hexadecimal numeral, or is more than a word. -/
def BadOrigin (s : SourceStatement) : Prop :=
  s.op = .org ∧ ¬ IsHexLiteral s.operand

/-- A statement whose address, after those before it, is beyond the last one. An end without a
label may stand there. -/
def Overflows (before : List SourceStatement) (s : SourceStatement) : Prop :=
  wordMax < addressOf (counterAfter before) s ∧ ¬ (s.op = .fin ∧ s.label = none)

/-- A statement that carries the label of one before it, where labels may not move. -/
def Repeats (settings : Settings) (before : List SourceStatement) (s : SourceStatement) : Prop :=
  settings.allowRebinding = false ∧
    ∃ label, s.label = some label ∧ ∃ t ∈ before, t.label = some label

def Refused (settings : Settings) (before : List SourceStatement) (s : SourceStatement) : Prop :=
  BadOrigin s ∨ Overflows before s ∨ Repeats settings before s

/-- What is reported about a refused statement: the operand of an origin before the address, and the
address before the label. -/
inductive Refusal (settings : Settings) (before : List SourceStatement) (s : SourceStatement) :
    Diagnostic → Prop
  | origin {d} : BadOrigin s → s.hexOperand = .error d → Refusal settings before s d
  | overflow : ¬ BadOrigin s → Overflows before s →
      Refusal settings before s
        ⟨.counterOverflow (addressOf (counterAfter before) s), s.origin⟩
  | duplicate {label : String} {i : Nat} {t : SourceStatement} :
      ¬ BadOrigin s → ¬ Overflows before s →
      settings.allowRebinding = false → s.label = some label →
      before[i]? = some t → t.label = some label →
      (∀ (j : Nat) (u : SourceStatement), before[j]? = some u → u.label = some label → j = i) →
      Refusal settings before s ⟨.duplicateLabel label t.origin.location, s.origin⟩

theorem Refusal.refused {settings : Settings} {before : List SourceStatement}
    {s : SourceStatement} {d : Diagnostic} (h : Refusal settings before s d) :
    Refused settings before s := by
  cases h with
  | origin horigin _ => exact Or.inl horigin
  | overflow _ hover => exact Or.inr (Or.inl hover)
  | duplicate _ _ hr hs hi ht _ =>
    exact Or.inr (Or.inr ⟨hr, _, hs, _, List.mem_of_getElem? hi, ht⟩)

theorem not_badOrigin_iff {s : SourceStatement} :
    ¬ BadOrigin s ↔ (s.op = .org → IsHexLiteral s.operand) := by
  unfold BadOrigin
  constructor
  · intro h horg
    exact Classical.byContradiction fun hlit => h ⟨horg, hlit⟩
  · intro h hbad
    exact hbad.2 (h hbad.1)

theorem not_overflows_iff {before : List SourceStatement} {s : SourceStatement} :
    ¬ Overflows before s ↔
      addressOf (counterAfter before) s ≤ wordMax ∨ s.op = .fin ∧ s.label = none := by
  unfold Overflows
  rw [Classical.not_and_iff_not_or_not, Nat.not_lt, Classical.not_not]

section Run

variable {settings : Settings} {p : List SourceStatement} {es : List Event} {state next : State}
  {s : SourceStatement} {e : Event} {d : Diagnostic}

theorem not_refused_of_step (h : Pass.Run (step settings) {} p es state)
    (hs : step settings state s = .ok (e, next)) : ¬ Refused settings p s := by
  obtain ⟨hlit, hcounter, -⟩ := place_eq_ok_iff.1 (step_eq_ok hs).1
  rw [run_counter h] at hcounter
  rintro (horigin | hover | ⟨hr, label, hl, t, ht, htl⟩)
  · exact not_badOrigin_iff.2 hlit horigin
  · exact not_overflows_iff.2 hcounter hover
  · have hfree := label_fresh_of_step h hs hr hl
    exact lastLabelled_placed_eq_none_iff.1 hfree t ht htl

theorem refusal_of_step (h : Pass.Run (step settings) {} p es state)
    (hs : step settings state s = .error d) : Refusal settings p s d := by
  -- in the order of the checks: the operand of an origin, the address, the label
  by_cases horigin : BadOrigin s
  · obtain ⟨d', hd'⟩ := SourceStatement.hexOperand_eq_error_iff.2 horigin.2
    have hplace : place state.counter s = .error d' := place_of_hexOperand_error horigin.1 hd'
    rcases step_eq_error hs with hd | ⟨address, ha, -⟩
    · rw [hplace] at hd
      exact Refusal.origin horigin (Except.error.inj hd ▸ hd')
    · rw [hplace] at ha; cases ha
  · have hplace := place_of_isHexLiteral state.counter (not_badOrigin_iff.1 horigin)
    have hfailed := step_eq_error hs
    rw [run_counter h] at hplace hfailed
    by_cases hover : Overflows p s
    · have hbeyond := fun hle => not_overflows_iff.2 hle hover
      rw [if_neg hbeyond] at hplace
      rcases hfailed with hd | ⟨address, ha, -⟩
      · rw [hplace] at hd
        exact Except.error.inj hd ▸ Refusal.overflow horigin hover
      · rw [hplace] at ha; cases ha
    · rw [if_pos (not_overflows_iff.1 hover)] at hplace
      rcases hfailed with hd | ⟨address, -, hb⟩
      · rw [hplace] at hd; cases hd
      · -- the table holds the last statement with the label, and without rebinding the only one
        obtain ⟨hr, label, before, hl, hf, rfl⟩ := bindLabel_eq_error (run_isClosed h) hb
        rw [run_find? h, binding?, Option.map_eq_some_iff] at hf
        obtain ⟨x, hx, rfl⟩ := hf
        obtain ⟨hmem, hxl⟩ := lastLabelled_eq_some hx
        obtain ⟨i, hi, -⟩ := mem_placed_iff.1 hmem
        refine Refusal.duplicate horigin hover hr hl hi hxl ?_
        intro j u hj hu
        exact run_labelsDistinct h hr j i u x.1 label hj hu hi hxl

def RefusedAt (settings : Settings) (p : List SourceStatement) (k : Nat) : Prop :=
  ∃ s, p[k]? = some s ∧ Refused settings (p.take k) s

def RefusalAt (settings : Settings) (p : List SourceStatement) (k : Nat) (d : Diagnostic) : Prop :=
  ∃ s, p[k]? = some s ∧ Refusal settings (p.take k) s d

theorem not_refusedAt_of_run (h : Pass.Run (step settings) {} p es state) (k : Nat) :
    ¬ RefusedAt settings p k := by
  rintro ⟨s, hk, hs⟩
  obtain ⟨e, mid, next, -, hmid, hstep⟩ := h.at hk
  exact not_refused_of_step hmid hstep hs

theorem refusedAt_take {j k : Nat} (hj : j < k) :
    RefusedAt settings (p.take k) j ↔ RefusedAt settings p j := by
  unfold RefusedAt
  rw [List.getElem?_take_of_lt hj, List.take_take, Nat.min_eq_left (Nat.le_of_lt hj)]

end Run

end Layout

/-- A statement that cannot be encoded in a program: a literal that cannot be read or, with strict
labels, a memory reference without an operand or with one that no statement carries as a label. -/
def Unencodable (settings : Settings) (p : List SourceStatement) (s : SourceStatement) : Prop :=
  s.op = .directive .decimal ∧ ¬ IsDecimalLiteral s.operand ∨
  s.op = .directive .hexadecimal ∧ ¬ IsHexLiteral s.operand ∨
  settings.strictLabels = true ∧ (∃ op, s.op = .memory op) ∧
    (s.operand = none ∨ ∀ t ∈ p, t.label ≠ s.operand)

theorem Unencodable.stores {settings : Settings} {p : List SourceStatement} {s : SourceStatement}
    (h : Unencodable settings p s) : s.Stores := by
  unfold SourceStatement.Stores
  rcases h with ⟨hop, -⟩ | ⟨hop, -⟩ | ⟨-, ⟨op, hop⟩, -⟩ <;> rw [hop] <;> exact ⟨nofun, nofun⟩

namespace Assembly

variable {settings : Settings} {a b : Assembly}

/-- A first pass that fails reports the first statement that is refused. -/
theorem refusalAt_of_layOut {d : Diagnostic} (h : a.layOut settings = .error d) :
    ∃ k, Layout.RefusalAt settings (throughEnd a.statements) k d ∧
      ∀ j < k, ¬ Layout.RefusedAt settings (throughEnd a.statements) j := by
  -- the statements before the one that stopped the pass are a run, and a run refuses nothing
  obtain ⟨k, s, es, state, hk, hrun, hstep⟩ := layOut_eq_error h
  refine ⟨k, ⟨s, hk, Layout.refusal_of_step hrun hstep⟩, ?_⟩
  intro j hj hrefused
  exact Layout.not_refusedAt_of_run hrun j ((Layout.refusedAt_take hj).2 hrefused)

theorem layOut_eq_error_iff :
    (∃ d, a.layOut settings = .error d) ↔
      ∃ k, Layout.RefusedAt settings (throughEnd a.statements) k := by
  constructor
  · rintro ⟨d, hd⟩
    obtain ⟨k, ⟨s, hk, hs⟩, -⟩ := refusalAt_of_layOut hd
    exact ⟨k, s, hk, hs.refused⟩
  · rintro ⟨k, hk⟩
    cases h : a.layOut settings with
    | error d => exact ⟨d, rfl⟩
    | ok b =>
      obtain ⟨es, state, hrun, -⟩ := layOut_eq_ok h
      exact absurd hk (Layout.not_refusedAt_of_run hrun k)

theorem operand_unbound_iff (h : a.layOut settings = .ok b) (s : SourceStatement) :
    s.operand.bind b.labels.value? = none ↔
      s.operand = none ∨ ∀ t ∈ throughEnd a.statements, t.label ≠ s.operand := by
  obtain ⟨es, state, hrun, rfl⟩ := layOut_eq_ok h
  cases ho : s.operand with
  | none => exact ⟨fun _ => Or.inl rfl, fun _ => rfl⟩
  | some label =>
    rw [Option.bind_some, Layout.run_value? hrun, Layout.labelAddress?_placed_eq_none_iff]
    exact ⟨Or.inr, fun hfree => hfree.resolve_left nofun⟩

theorem encode_eq_error_after_layOut (h : a.layOut settings = .ok b) {s : SourceStatement}
    (hs : s.Stores) :
    (∃ f, s.encode settings b.labels = .error f) ↔
      Unencodable settings (throughEnd a.statements) s := by
  rw [SourceStatement.exists_encode_eq_error_iff hs, operand_unbound_iff h, Unencodable]

/-- What a first pass does to a program does not depend on what the assembly held before it. -/
theorem layOut_ofStatements (settings : Settings) (a : Assembly) :
    ((ofStatements a.statements).layOut settings).map (·.labels) =
      (a.layOut settings).map (·.labels) := by
  unfold layOut
  cases h : (Layout.run settings a.statements).stop with
  | none => simp only [ofStatements, h]; rfl
  | some d => simp only [ofStatements, h]

theorem assemble_of_layOut_eq_error {d : Diagnostic} (h : a.layOut settings = .error d) :
    assemble settings a.statements = .error (.diagnostic d) := by
  have hsame := layOut_ofStatements settings a
  rw [h] at hsame
  unfold assemble
  cases hl : (ofStatements a.statements).layOut settings with
  | error d' => rw [hl] at hsame; cases hsame; rfl
  | ok b' => rw [hl] at hsame; cases hsame

/-- An assembly fails after its first pass for the first statement that has no encoding, with the
labels of that pass. -/
theorem encode_eq_error_of_assemble {f : Fault} (h : a.layOut settings = .ok b)
    (hf : assemble settings a.statements = .error f) :
    ∃ (k : Nat) (s : SourceStatement), (throughEnd a.statements)[k]? = some s ∧ s.Stores ∧
      s.encode settings b.labels = .error f ∧
      ∀ j < k, ∀ t : SourceStatement, (throughEnd a.statements)[j]? = some t → t.Stores →
        ∃ r, t.encode settings b.labels = .ok r := by
  have hsame := layOut_ofStatements settings a
  rw [h] at hsame
  unfold assemble at hf
  cases hl : (ofStatements a.statements).layOut settings with
  | error d => rw [hl] at hsame; cases hsame
  | ok b' =>
    rw [hl] at hsame hf
    have hlabels : b'.labels = b.labels := Except.ok.inj hsame
    rw [← hlabels]
    exact emit_eq_error_after_layOut (a := ofStatements a.statements) hl hf

/-- A program cannot be assembled exactly if it cannot be laid out or has a statement that cannot be
encoded. -/
theorem assemble_eq_error_iff :
    (∃ f, assemble settings a.statements = .error f) ↔
      (∃ d, a.layOut settings = .error d) ∨
      ∃ s ∈ throughEnd a.statements, Unencodable settings (throughEnd a.statements) s := by
  constructor
  · rintro ⟨f, hf⟩
    cases hl : a.layOut settings with
    | error d => exact Or.inl ⟨d, rfl⟩
    | ok b =>
      obtain ⟨k, s, hk, hs, hencode, -⟩ := encode_eq_error_of_assemble hl hf
      have hbad := (encode_eq_error_after_layOut hl hs).1 ⟨f, hencode⟩
      exact Or.inr ⟨s, List.mem_of_getElem? hk, hbad⟩
  · rintro (⟨d, hd⟩ | ⟨s, hmem, hbad⟩)
    · exact ⟨_, assemble_of_layOut_eq_error hd⟩
    · unfold assemble
      cases hl : (ofStatements a.statements).layOut settings with
      | error d => exact ⟨_, rfl⟩
      | ok b =>
        cases he : b.emit settings with
        | error f => exact ⟨f, he⟩
        | ok r =>
          -- an assembly that succeeds has encoded the statement, which contradicts `hbad`
          obtain ⟨es, counter, hrun, -⟩ := emit_eq_ok he
          rw [statements_of_layOut hl] at hrun
          obtain ⟨k, hk⟩ := List.mem_iff_getElem?.1 hmem
          obtain ⟨word, hword⟩ := Emission.run_encode hrun hk hbad.stores
          obtain ⟨f, hf⟩ := (encode_eq_error_after_layOut hl hbad.stores).2 hbad
          rw [hword] at hf
          cases hf

/-- Exactly when a program is refused, and for what. Its first pass fails if some statement through
the end is refused, and reports the first of them; an assembly fails if its first pass does, with
the same report, or else if some statement cannot be encoded, with the fault of the first of
them. -/
theorem refusal_exact (settings : Settings) (a : Assembly) :
    ((∃ d, a.layOut settings = .error d) ↔
      ∃ k, Layout.RefusedAt settings (throughEnd a.statements) k) ∧
    (∀ d, a.layOut settings = .error d →
      ∃ k, Layout.RefusalAt settings (throughEnd a.statements) k d ∧
        ∀ j < k, ¬ Layout.RefusedAt settings (throughEnd a.statements) j) ∧
    ((∃ f, assemble settings a.statements = .error f) ↔
      (∃ d, a.layOut settings = .error d) ∨
      ∃ s ∈ throughEnd a.statements, Unencodable settings (throughEnd a.statements) s) ∧
    (∀ d, a.layOut settings = .error d →
      assemble settings a.statements = .error (.diagnostic d)) ∧
    (∀ b, a.layOut settings = .ok b →
      (∀ s : SourceStatement, s.Stores → ((∃ f, s.encode settings b.labels = .error f) ↔
        Unencodable settings (throughEnd a.statements) s)) ∧
      ∀ f, assemble settings a.statements = .error f →
        ∃ (k : Nat) (s : SourceStatement), (throughEnd a.statements)[k]? = some s ∧ s.Stores ∧
          s.encode settings b.labels = .error f ∧
          ∀ j < k, ∀ t : SourceStatement, (throughEnd a.statements)[j]? = some t → t.Stores →
            ∃ r, t.encode settings b.labels = .ok r) := by
  refine ⟨layOut_eq_error_iff, ?_, assemble_eq_error_iff, ?_, ?_⟩
  · intro d hd
    exact refusalAt_of_layOut hd
  · intro d hd
    exact assemble_of_layOut_eq_error hd
  · intro b hb
    refine ⟨?_, ?_⟩
    · intro s hs
      exact encode_eq_error_after_layOut hb hs
    · intro f hf
      exact encode_eq_error_of_assemble hb hf

-- what the first pass refuses comes before a literal that cannot be read, on whichever line
example : assemble {} [⟨⟨none, .directive .hexadecimal, some "XYZ", false⟩, {}⟩,
    ⟨⟨none, .org, some "10000", false⟩, {}⟩] =
    .error (.diagnostic ⟨.badLiteral "ORG" "10000" .aboveWord, {}⟩) := rfl

end Assembly

end TwoPass
