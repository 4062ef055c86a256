import TwoPass.Proofs.Lockstep

/-!
# Comparing assemblies

Two assemblies of one program under different settings: the settings decide whether there is a
result, and never what it is. Two programs with the same statements through their ends: all that
follows an end, whatever its faults, changes nothing but the statements that are kept.
-/

namespace TwoPass

namespace Pass

variable {σ α ε : Type} {step step' : σ → SourceStatement → Except ε (α × σ)} {start : σ}

/-- A pass that nothing stopped is repeated by one that makes the same steps and perhaps more. -/
theorem run_eq_of_step_ok
    (hstep : ∀ state s r, step state s = .ok r → step' state s = .ok r)
    {p : List SourceStatement} (hstop : (Pass.run step start p).stop = none) :
    Pass.run step' start p = Pass.run step start p := by
  induction p generalizing start with
  | nil => rfl
  | cons s rest ih =>
    cases hs : step start s with
    | error f =>
      rw [run_cons_error hs] at hstop
      cases hstop
    | ok r =>
      obtain ⟨e, next⟩ := r
      have hs' := hstep start s (e, next) hs
      by_cases hfin : s.op = .fin
      · rw [run_cons_fin hs hfin, run_cons_fin hs' hfin]
      · rw [run_cons_ok hs hfin] at hstop
        rw [run_cons_ok hs hfin, run_cons_ok hs' hfin, ih hstop]

/-- A pass does not see what follows the end. -/
theorem run_throughEnd (step : σ → SourceStatement → Except ε (α × σ)) (start : σ)
    (p : List SourceStatement) : Pass.run step start (throughEnd p) = Pass.run step start p := by
  induction p generalizing start with
  | nil => rfl
  | cons s rest ih =>
    rw [throughEnd]
    by_cases hfin : s.op = .fin
    · rw [if_pos hfin]
      cases hs : step start s with
      | error f => rw [run_cons_error hs, run_cons_error hs]
      | ok r => rw [run_cons_fin hs hfin, run_cons_fin hs hfin]
    · rw [if_neg hfin]
      cases hs : step start s with
      | error f => rw [run_cons_error hs, run_cons_error hs]
      | ok r => rw [run_cons_ok hs hfin, run_cons_ok hs hfin, ih]

theorem run_congr_throughEnd {p q : List SourceStatement} (h : throughEnd q = throughEnd p) :
    Pass.run step start q = Pass.run step start p := by
  rw [← run_throughEnd step start q, h, run_throughEnd]

end Pass

namespace SourceStatement

variable {c c' : Settings} {labels labels' : LabelTable} {s : SourceStatement}

/-- The settings and the labels enter an encoding only as the address that it refers to. -/
theorem encode_of_referredAddress
    (href : ∀ r, s.referredAddress c labels = .ok r → s.referredAddress c' labels' = .ok r)
    {r : Word × List Warning} (h : s.encode c labels = .ok r) : s.encode c' labels' = .ok r := by
  unfold encode at h ⊢
  cases hop : s.op with
  | memory op =>
    simp only [hop] at h ⊢
    cases hr : s.referredAddress c labels with
    | error d =>
      rw [hr] at h
      cases h
    | ok referred =>
      rw [hr] at h
      rw [href referred hr]
      exact h
  | register op =>
    simp only [hop] at h
    exact h
  | device op =>
    simp only [hop] at h
    exact h
  | directive d =>
    rw [hop] at h
    cases d <;> exact h

end SourceStatement

/-- Settings `lax` tolerate all that the settings `strict` do. -/
structure Settings.Tolerates (lax strict : Settings) : Prop where
  strictLabels : lax.strictLabels = true → strict.strictLabels = true
  allowRebinding : strict.allowRebinding = true → lax.allowRebinding = true

section Tolerance

variable {lax strict : Settings}

theorem LabelTable.define_of_tolerates (hl : lax.Tolerates strict) {t : LabelTable}
    {label : String} {address : Int} {origin : Origin} {r : LabelTable × Option Binding}
    (h : t.define label address origin strict.allowRebinding = .ok r) :
    t.define label address origin lax.allowRebinding = .ok r := by
  unfold LabelTable.define at h ⊢
  by_cases hclosed : t.isClosed = true
  · rw [if_pos hclosed] at h
    cases h
  · rw [if_neg hclosed] at h ⊢
    cases hf : t.find? label with
    | none =>
      rw [hf] at h
      exact h
    | some before =>
      simp only [hf] at h ⊢
      -- a bound label was accepted, so both settings let it move
      by_cases hr : strict.allowRebinding = true
      · rw [if_pos hr] at h
        rw [if_pos (hl.allowRebinding hr)]
        exact h
      · rw [if_neg hr] at h
        cases h

theorem Layout.bindLabel_of_tolerates (hl : lax.Tolerates strict) {labels : LabelTable}
    {address : Nat} {s : SourceStatement} {r : LabelTable × List Warning}
    (h : bindLabel strict labels address s = .ok r) : bindLabel lax labels address s = .ok r := by
  unfold bindLabel at h ⊢
  cases hs : s.label with
  | none =>
    rw [hs] at h
    exact h
  | some label =>
    simp only [hs] at h ⊢
    cases hd : labels.define label address s.origin strict.allowRebinding with
    | error d =>
      rw [hd] at h
      cases h
    | ok bound =>
      rw [hd] at h
      rw [LabelTable.define_of_tolerates hl hd]
      exact h

theorem Layout.step_of_tolerates (hl : lax.Tolerates strict) (state : State)
    (s : SourceStatement) (r : Event × State) (h : step strict state s = .ok r) :
    step lax state s = .ok r := by
  unfold step at h ⊢
  cases hp : place state.counter s with
  | error d =>
    rw [hp] at h
    cases h
  | ok address =>
    rw [hp] at h
    simp only [bind, Except.bind] at h ⊢
    cases hb : bindLabel strict state.labels address s with
    | error d =>
      rw [hb] at h
      cases h
    | ok bound =>
      rw [hb] at h
      rw [bindLabel_of_tolerates hl hb]
      exact h

-- only a reference without an address tells the settings apart, and the strict ones refuse it
theorem Settings.Tolerates.unless_strict (hl : lax.Tolerates strict) {ε α : Type} {e e' : ε}
    {x r : α} (h : (if strict.strictLabels then .error e else .ok x : Except ε α) = .ok r) :
    (if lax.strictLabels then .error e' else .ok x : Except ε α) = .ok r := by
  by_cases hs : strict.strictLabels = true
  · rw [if_pos hs] at h
    cases h
  · rw [if_neg hs] at h
    rw [if_neg (mt hl.strictLabels hs)]
    exact h

theorem SourceStatement.referredAddress_of_tolerates (hl : lax.Tolerates strict)
    {labels : LabelTable} {s : SourceStatement} {r : Int × List Warning}
    (h : s.referredAddress strict labels = .ok r) : s.referredAddress lax labels = .ok r := by
  unfold referredAddress at h ⊢
  cases ho : s.operand with
  | none =>
    simp only [ho] at h ⊢
    exact hl.unless_strict h
  | some label =>
    simp only [ho] at h ⊢
    cases hv : labels.value? label with
    | some address =>
      simp only [hv] at h
      exact h
    | none =>
      simp only [hv] at h ⊢
      exact hl.unless_strict h

theorem Emission.step_of_tolerates (hl : lax.Tolerates strict) {labels : LabelTable}
    (counter : Nat) (s : SourceStatement) (r : Event × Nat)
    (h : step strict labels counter s = .ok r) : step lax labels counter s = .ok r := by
  unfold step at h ⊢
  by_cases horg : s.op = .org
  · rw [if_pos horg] at h ⊢
    exact h
  rw [if_neg horg] at h ⊢
  cases hc : checkCounter counter s with
  | error d =>
    rw [hc] at h
    cases h
  | ok u =>
    simp only [hc] at h ⊢
    by_cases hfin : s.op = .fin
    · rw [if_pos hfin] at h ⊢
      exact h
    rw [if_neg hfin] at h ⊢
    cases he : s.encode strict labels with
    | error f =>
      rw [he] at h
      cases h
    | ok encoded =>
      rw [he] at h
      have href : ∀ r, s.referredAddress strict labels = .ok r →
          s.referredAddress lax labels = .ok r :=
        fun r hr => SourceStatement.referredAddress_of_tolerates hl hr
      rw [SourceStatement.encode_of_referredAddress href he]
      exact h

end Tolerance

namespace Assembly

section Settings

variable {lax strict : Settings} {a b : Assembly} {p : List SourceStatement}

theorem layOut_of_tolerates (hl : lax.Tolerates strict) (h : a.layOut strict = .ok b) :
    a.layOut lax = .ok b := by
  unfold layOut at h ⊢
  cases hstop : (Layout.run strict a.statements).stop with
  | some d =>
    simp only [hstop] at h
    cases h
  | none =>
    have hrun : Layout.run lax a.statements = Layout.run strict a.statements :=
      Pass.run_eq_of_step_ok (Layout.step_of_tolerates hl) hstop
    rw [hrun]
    exact h

theorem emit_of_tolerates (hl : lax.Tolerates strict) (h : a.emit strict = .ok b) :
    a.emit lax = .ok b := by
  unfold emit at h ⊢
  by_cases hclosed : a.labels.isClosed = true
  · rw [if_pos hclosed] at h ⊢
    cases hstop : (Emission.run strict a.labels a.statements).stop with
    | some f =>
      simp only [hstop] at h
      cases h
    | none =>
      have hrun : Emission.run lax a.labels a.statements =
          Emission.run strict a.labels a.statements :=
        Pass.run_eq_of_step_ok (Emission.step_of_tolerates hl) hstop
      rw [hrun]
      exact h
  · rw [if_neg hclosed] at h
    cases h

theorem assemble_of_tolerates (hl : lax.Tolerates strict) (h : assemble strict p = .ok a) :
    assemble lax p = .ok a := by
  unfold assemble at h ⊢
  cases hlay : (ofStatements p).layOut strict with
  | error d =>
    rw [hlay] at h
    cases h
  | ok b =>
    rw [hlay] at h
    rw [layOut_of_tolerates hl hlay]
    exact emit_of_tolerates hl h

/-- Settings decide whether a program is assembled and nothing else: any two under which it is give
the same assembly, with its warnings, and settings that tolerate more assemble it too. -/
theorem settings_decide_success_only (p : List SourceStatement) :
    (∀ (c₁ c₂ : Settings) (a b : Assembly), assemble c₁ p = .ok a → assemble c₂ p = .ok b →
      a = b) ∧
    ∀ (c c' : Settings) (a : Assembly), assemble c p = .ok a →
      (c'.strictLabels = true → c.strictLabels = true) →
      (c.allowRebinding = true → c'.allowRebinding = true) → assemble c' p = .ok a := by
  refine ⟨?_, ?_⟩
  · intro c₁ c₂ a b ha hb
    -- both are what the settings that tolerate everything give
    have hlax : ∀ c : Settings, ({ allowRebinding := true } : Settings).Tolerates c :=
      fun c => ⟨nofun, fun _ => rfl⟩
    have hsame := (assemble_of_tolerates (hlax c₁) ha).symm.trans
      (assemble_of_tolerates (hlax c₂) hb)
    exact Except.ok.inj hsame
  · intro c c' a ha hstrict hrebind
    exact assemble_of_tolerates ⟨hstrict, hrebind⟩ ha

/-- A program with a warning that no setting turns into a refusal. -/
def toleratedProgram : List SourceStatement :=
  [⟨⟨none, .org, some "1000", false⟩, {}⟩,
   ⟨⟨some "A", .memory .lda, some "A", false⟩, {}⟩,
   ⟨⟨none, .register .hlt, some "A", false⟩, {}⟩]

theorem settings_decide_success_only_for_program :
    ∃ a b, assemble { strictLabels := true } toleratedProgram = .ok a ∧
      assemble { allowRebinding := true } toleratedProgram = .ok b ∧ a = b ∧
      assemble {} toleratedProgram = .ok a ∧
      a.warnings.map (·.remark) = [.truncated "A" 4096, .operandIgnored (.register .hlt) "A"] := by
  obtain ⟨a, ha⟩ : ∃ a, assemble { strictLabels := true } toleratedProgram = .ok a := ⟨_, rfl⟩
  obtain ⟨b, hb⟩ : ∃ b, assemble { allowRebinding := true } toleratedProgram = .ok b := ⟨_, rfl⟩
  have hsame := (settings_decide_success_only toleratedProgram).1 _ _ a b ha hb
  have hdefault := (settings_decide_success_only toleratedProgram).2 _ {} a ha nofun nofun
  refine ⟨a, b, ha, hb, hsame, hdefault, ?_⟩
  cases ha
  rfl

end Settings

section End

variable {settings : Settings} {p q : List SourceStatement}

theorem layOut_congr_throughEnd {a : Assembly} (h : throughEnd q = throughEnd a.statements) :
    ({ a with statements := q } : Assembly).layOut settings =
      (a.layOut settings).map fun b => { b with statements := q } := by
  have hrun : Layout.run settings q = Layout.run settings a.statements :=
    Pass.run_congr_throughEnd h
  unfold layOut
  simp only [hrun]
  cases (Layout.run settings a.statements).stop <;> rfl

theorem emit_congr_throughEnd {a : Assembly} (h : throughEnd q = throughEnd a.statements) :
    ({ a with statements := q } : Assembly).emit settings =
      (a.emit settings).map fun b => { b with statements := q } := by
  have hrun : Emission.run settings a.labels q = Emission.run settings a.labels a.statements :=
    Pass.run_congr_throughEnd h
  unfold emit
  simp only [hrun]
  cases a.labels.isClosed with
  | false => rfl
  | true => cases (Emission.run settings a.labels a.statements).stop <;> rfl

theorem assemble_congr_throughEnd (h : throughEnd q = throughEnd p) :
    assemble settings q = (assemble settings p).map fun a => { a with statements := q } := by
  have hlay : (ofStatements q).layOut settings =
      ((ofStatements p).layOut settings).map fun b => { b with statements := q } :=
    layOut_congr_throughEnd (a := ofStatements p) h
  unfold assemble
  rw [hlay]
  cases hl : (ofStatements p).layOut settings with
  | error d => rfl
  | ok a =>
    have hstatements : a.statements = p := statements_of_layOut hl
    exact emit_congr_throughEnd (by rw [hstatements]; exact h)

theorem throughEnd_append_fin {e : SourceStatement} (he : e.op = .fin)
    (p rest : List SourceStatement) :
    throughEnd (p ++ [e] ++ rest) = throughEnd (p ++ [e]) := by
  induction p with
  | nil =>
    change throughEnd (e :: rest) = throughEnd [e]
    rw [throughEnd, throughEnd, if_pos he, if_pos he]
  | cons s p ih =>
    change throughEnd (s :: (p ++ [e] ++ rest)) = throughEnd (s :: (p ++ [e]))
    rw [throughEnd, throughEnd, ih]

/-- What follows an end decides neither whether a program is refused, nor for what, nor anything of
its assembly but the statements. -/
theorem assemble_append_end (settings : Settings) {e : SourceStatement} (he : e.op = .fin)
    (p rest : List SourceStatement) :
    assemble settings (p ++ [e] ++ rest) =
      (assemble settings (p ++ [e])).map fun a => { a with statements := p ++ [e] ++ rest } := by
  have hsame := throughEnd_append_fin he p rest
  exact assemble_congr_throughEnd hsame

def labelledEnd : SourceStatement :=
  ⟨⟨some "E", .fin, none, false⟩, {}⟩

/-- Statements of which the first pass refuses two, and the second one where labels are strict. -/
def faultyStatements : List SourceStatement :=
  [⟨⟨some "E", .memory .lda, some "LOST", false⟩, {}⟩,
   ⟨⟨none, .directive .decimal, some "ten", false⟩, {}⟩,
   ⟨⟨none, .org, some "XYZ", false⟩, {}⟩]

theorem assemble_append_end_of_faultyStatements :
    (∃ a, assemble { strictLabels := true }
        ([⟨⟨none, .memory .lda, some "E", false⟩, {}⟩] ++ [labelledEnd]) = .ok a ∧
      assemble { strictLabels := true }
        ([⟨⟨none, .memory .lda, some "E", false⟩, {}⟩] ++ [labelledEnd] ++ faultyStatements) =
        .ok { a with statements :=
          [⟨⟨none, .memory .lda, some "E", false⟩, {}⟩] ++ [labelledEnd] ++ faultyStatements }) ∧
    ∃ f, assemble {} ([⟨⟨some "E", .register .cla, none, false⟩, {}⟩] ++ [labelledEnd]) =
        .error f ∧
      assemble {} ([⟨⟨some "E", .register .cla, none, false⟩, {}⟩] ++ [labelledEnd] ++
        faultyStatements) = .error f := by
  refine ⟨⟨_, rfl, ?_⟩, _, rfl, ?_⟩
  · rw [assemble_append_end _ (e := labelledEnd) rfl]
    rfl
  · rw [assemble_append_end _ (e := labelledEnd) rfl]
    rfl

end End

end Assembly

end TwoPass
