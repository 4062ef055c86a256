import TwoPass.Emission

/-!
# Runs of a pass

A run is what a pass has done so far: the statements it went through, an event for each of them,
and the state it reached. A pass over a program is a run over the statements up to its end, or a
run over the first of these that the next one stops.
-/

namespace TwoPass

/-- The statements up to the first that ends the program, which is included. -/
def throughEnd : List SourceStatement → List SourceStatement
  | [] => []
  | s :: rest => if s.op = .fin then [s] else s :: throughEnd rest

theorem eq_ok_of_toOption {ε α : Type} {result : Except ε α} {a : α}
    (h : result.toOption = some a) : result = .ok a := by
  cases result with
  | error e => cases h
  | ok b =>
    cases h
    rfl

namespace Pass

variable {σ α ε : Type} {step : σ → SourceStatement → Except ε (α × σ)} {start : σ}

/-- The statements that a pass went through, its event for each, and the state after the last. -/
inductive Run (step : σ → SourceStatement → Except ε (α × σ)) (start : σ) :
    List SourceStatement → List α → σ → Prop
  | nil : Run step start [] [] start
  | snoc {p es state s e next} : Run step start p es state → step state s = .ok (e, next) →
      Run step start (p ++ [s]) (es ++ [e]) next

theorem Run.length_eq {p es state} (h : Run step start p es state) : es.length = p.length := by
  induction h with
  | nil => rfl
  | snoc _ _ ih => rw [List.length_append, List.length_append, ih]; rfl

theorem Run.cons {s e next p es state} (hs : step start s = .ok (e, next))
    (h : Run step next p es state) : Run step start (s :: p) (e :: es) state := by
  induction h with
  | nil => exact Run.nil.snoc hs
  | snoc _ hstep ih => exact ih.snoc hstep

/-- What a run did at a statement: it ran so far, and then made the step of that statement. -/
theorem Run.at {p es state} (h : Run step start p es state) {k : Nat} {s : SourceStatement}
    (hk : p[k]? = some s) :
    ∃ e mid next, es[k]? = some e ∧ Run step start (p.take k) (es.take k) mid ∧
      step mid s = .ok (e, next) := by
  induction h with
  | nil => simp at hk
  | @snoc p es state t e next hrun hstep ih =>
    have hlen := hrun.length_eq
    by_cases hlt : k < p.length
    · rw [List.getElem?_append_left hlt] at hk
      obtain ⟨e', mid, next', he, hmid, hnext⟩ := ih hk
      refine ⟨e', mid, next', ?_, ?_, hnext⟩
      · rw [List.getElem?_append_left (by omega), he]
      · rwa [List.take_append_of_le_length (by omega), List.take_append_of_le_length (by omega)]
    · -- the last statement: everything before it is the run so far
      obtain ⟨hlast, rfl⟩ : k = p.length ∧ t = s := by
        have hbound : k < (p ++ [t]).length := (List.getElem?_eq_some_iff.1 hk).1
        rw [List.length_append, List.length_singleton] at hbound
        have hlast : k = p.length := by omega
        subst hlast
        exact ⟨rfl, by simpa using hk⟩
      subst hlast
      refine ⟨e, state, next, ?_, ?_, hstep⟩
      · rw [← hlen]; exact List.getElem?_concat_length
      · rwa [List.take_left, ← hlen, List.take_left]

theorem run_cons_error {s : SourceStatement} {f : ε} (hs : step start s = .error f)
    (rest : List SourceStatement) : Pass.run step start (s :: rest) = ⟨[], start, some f⟩ := by
  rw [Pass.run, hs]

theorem run_cons_fin {s : SourceStatement} {e : α} {next : σ} (hs : step start s = .ok (e, next))
    (hfin : s.op = .fin) (rest : List SourceStatement) :
    Pass.run step start (s :: rest) = ⟨[e], next, none⟩ := by
  rw [Pass.run, hs]
  exact if_pos hfin

theorem run_cons_ok {s : SourceStatement} {e : α} {next : σ} (hs : step start s = .ok (e, next))
    (hfin : s.op ≠ .fin) (rest : List SourceStatement) :
    Pass.run step start (s :: rest) = ⟨e :: (Pass.run step next rest).events,
      (Pass.run step next rest).state, (Pass.run step next rest).stop⟩ := by
  rw [Pass.run, hs]
  exact if_neg hfin

/-- A pass that nothing stopped is a run through the end of the program. -/
theorem run_of_stop_eq_none {p : List SourceStatement} (h : (Pass.run step start p).stop = none) :
    Run step start (throughEnd p) (Pass.run step start p).events (Pass.run step start p).state := by
  induction p generalizing start with
  | nil => exact Run.nil
  | cons s rest ih =>
    rw [throughEnd]
    cases hs : step start s with
    | error f => rw [run_cons_error hs] at h; cases h
    | ok r =>
      obtain ⟨e, next⟩ := r
      by_cases hfin : s.op = .fin
      · rw [run_cons_fin hs hfin, if_pos hfin]
        exact Run.nil.snoc hs
      · rw [run_cons_ok hs hfin] at h ⊢
        rw [if_neg hfin]
        exact (ih h).cons hs

/-- A pass that was stopped is a run up to the statement that stopped it. -/
theorem run_of_stop_eq_some {p : List SourceStatement} {f : ε}
    (h : (Pass.run step start p).stop = some f) :
    ∃ k s, (throughEnd p)[k]? = some s ∧
      Run step start ((throughEnd p).take k) (Pass.run step start p).events
        (Pass.run step start p).state ∧
      step (Pass.run step start p).state s = .error f := by
  induction p generalizing start with
  | nil => cases h
  | cons s rest ih =>
    rw [throughEnd]
    cases hs : step start s with
    | error d =>
      rw [run_cons_error hs] at h ⊢
      obtain rfl : d = f := Option.some.inj h
      refine ⟨0, s, ?_, Run.nil, hs⟩
      split <;> rfl
    | ok r =>
      obtain ⟨e, next⟩ := r
      by_cases hfin : s.op = .fin
      · rw [run_cons_fin hs hfin] at h; cases h
      · rw [run_cons_ok hs hfin] at h ⊢
        rw [if_neg hfin]
        obtain ⟨k, t, hk, hrun, ht⟩ := ih h
        exact ⟨k + 1, t, hk, hrun.cons hs, ht⟩

end Pass

namespace Assembly

variable {settings : Settings} {a b : Assembly}

theorem layOut_eq_ok_iff :
    a.layOut settings = .ok b ↔ (Layout.run settings a.statements).stop = none ∧
      b = { a with
        labels := (Layout.run settings a.statements).state.labels.close
        layoutTrace := (Layout.run settings a.statements).events.map (·.address)
        warnings := a.warnings ++
          (Layout.run settings a.statements).events.flatMap (·.warnings) } := by
  unfold layOut
  cases hstop : (Layout.run settings a.statements).stop with
  | some d => simp [hstop]
  | none => simp [hstop, eq_comm]

theorem layOut_eq_ok (h : a.layOut settings = .ok b) :
    ∃ es state, Pass.Run (Layout.step settings) {} (throughEnd a.statements) es state ∧
      b = { a with
        labels := state.labels.close
        layoutTrace := es.map (·.address)
        warnings := a.warnings ++ es.flatMap (·.warnings) } := by
  obtain ⟨hstop, hb⟩ := layOut_eq_ok_iff.1 h
  exact ⟨_, _, Pass.run_of_stop_eq_none hstop, hb⟩

theorem layOut_eq_error {d : Diagnostic} (h : a.layOut settings = .error d) :
    ∃ k s es state, (throughEnd a.statements)[k]? = some s ∧
      Pass.Run (Layout.step settings) {} ((throughEnd a.statements).take k) es state ∧
      Layout.step settings state s = .error d := by
  unfold layOut at h
  cases hstop : (Layout.run settings a.statements).stop with
  | none => simp only [hstop] at h; cases h
  | some d' =>
    simp only [hstop] at h
    cases h
    obtain ⟨k, s, hk, hrun, hs⟩ := Pass.run_of_stop_eq_some hstop
    exact ⟨k, s, _, _, hk, hrun, hs⟩

theorem emit_eq_ok_iff :
    a.emit settings = .ok b ↔ a.labels.isClosed = true ∧
      (Emission.run settings a.labels a.statements).stop = none ∧
      b = { a with
        cells := (Emission.run settings a.labels a.statements).events.filterMap (·.cell)
        emissionTrace := (Emission.run settings a.labels a.statements).events.map (·.address)
        warnings := a.warnings ++
          (Emission.run settings a.labels a.statements).events.flatMap (·.warnings) } := by
  unfold emit
  cases a.labels.isClosed with
  | false => simp
  | true =>
    cases hstop : (Emission.run settings a.labels a.statements).stop with
    | some f => simp [hstop]
    | none => simp [hstop, eq_comm]

theorem emit_eq_ok (h : a.emit settings = .ok b) :
    ∃ es counter,
      Pass.Run (Emission.step settings a.labels) 0 (throughEnd a.statements) es counter ∧
      b = { a with
        cells := es.filterMap (·.cell)
        emissionTrace := es.map (·.address)
        warnings := a.warnings ++ es.flatMap (·.warnings) } := by
  obtain ⟨-, hstop, hb⟩ := emit_eq_ok_iff.1 h
  exact ⟨_, _, Pass.run_of_stop_eq_none hstop, hb⟩

theorem emit_eq_error {f : Fault} (hclosed : a.labels.isClosed = true)
    (h : a.emit settings = .error f) :
    ∃ k s es counter, (throughEnd a.statements)[k]? = some s ∧
      Pass.Run (Emission.step settings a.labels) 0 ((throughEnd a.statements).take k) es counter ∧
      Emission.step settings a.labels counter s = .error f := by
  unfold emit at h
  rw [if_pos hclosed] at h
  cases hstop : (Emission.run settings a.labels a.statements).stop with
  | none => simp only [hstop] at h; cases h
  | some f' =>
    simp only [hstop] at h
    cases h
    obtain ⟨k, s, hk, hrun, hs⟩ := Pass.run_of_stop_eq_some hstop
    exact ⟨k, s, _, _, hk, hrun, hs⟩

/-- An assembly that succeeds is two runs over the same statements, the second with the labels that
the first one left. -/
theorem assemble_eq_ok {p : List SourceStatement} (h : assemble settings p = .ok a) :
    ∃ es state es' counter, Pass.Run (Layout.step settings) {} (throughEnd p) es state ∧
      Pass.Run (Emission.step settings state.labels.close) 0 (throughEnd p) es' counter ∧
      a = {
        statements := p
        labels := state.labels.close
        cells := es'.filterMap (·.cell)
        layoutTrace := es.map (·.address)
        emissionTrace := es'.map (·.address)
        warnings := es.flatMap (·.warnings) ++ es'.flatMap (·.warnings) } := by
  unfold assemble at h
  cases hl : (ofStatements p).layOut settings with
  | error d => rw [hl] at h; cases h
  | ok b =>
    rw [hl] at h
    obtain ⟨es, state, hrun, rfl⟩ := layOut_eq_ok hl
    obtain ⟨es', counter, hrun', rfl⟩ := emit_eq_ok h
    exact ⟨es, state, es', counter, hrun, hrun', rfl⟩

end Assembly

end TwoPass
