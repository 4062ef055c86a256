import TwoPass.Proofs.Addresses

/-!
# Bindings

The first pass binds a label to the address of each statement that carries it, one after the other,
so that a table holds the last of them. `Layout.run_find?` says so of every table that the pass
goes through, and the warnings and refusals of the pass are read off the same rule.
-/

namespace TwoPass

theorem LabelTable.isClosed_put (t : LabelTable) (b : Binding) :
    (t.put b).isClosed = t.isClosed := by
  unfold LabelTable.put
  split <;> rfl

theorem findRev?_concat {α : Type} (p : α → Bool) (xs : List α) (x : α) :
    (xs ++ [x]).findRev? p = if p x then some x else xs.findRev? p := by
  rw [List.findRev?_eq_find?_reverse, List.findRev?_eq_find?_reverse, List.reverse_append,
    List.reverse_singleton, List.singleton_append, List.find?_cons]
  cases p x <;> rfl

namespace Layout

/-- Statements with their addresses. -/
def placed (p : List SourceStatement) : List (SourceStatement × Nat) :=
  p.zip (addresses p)

/-- The last of some placed statements that carries a label. -/
def lastLabelled (label : String) (ps : List (SourceStatement × Nat)) :
    Option (SourceStatement × Nat) :=
  ps.findRev? fun x => x.1.label == some label

theorem placed_concat (p : List SourceStatement) (s : SourceStatement) :
    placed (p ++ [s]) = placed p ++ [(s, addressOf (counterAfter p) s)] := by
  unfold placed
  rw [addresses_concat, List.zip_append (length_addresses p).symm]
  rfl

theorem map_fst_placed (p : List SourceStatement) : (placed p).map (·.1) = p :=
  List.map_fst_zip (Nat.le_of_eq (length_addresses p).symm)

theorem take_placed (p : List SourceStatement) (k : Nat) :
    (placed p).take k = placed (p.take k) := by
  unfold placed
  rw [← take_addresses]
  exact List.take_zipWith

theorem getElem?_placed {p : List SourceStatement} {k : Nat} {s : SourceStatement}
    (hk : p[k]? = some s) :
    (placed p)[k]? = some (s, addressOf (counterAfter (p.take k)) s) := by
  rw [placed, List.getElem?_zip_eq_some, getElem?_addresses, hk]
  exact ⟨rfl, rfl⟩

theorem mem_placed_iff {p : List SourceStatement} {x : SourceStatement × Nat} :
    x ∈ placed p ↔ ∃ k : Nat, p[k]? = some x.1 ∧ (addresses p)[k]? = some x.2 := by
  unfold placed
  rw [List.mem_iff_getElem?]
  simp only [List.getElem?_zip_eq_some]

theorem lastLabelled_concat (label : String) (ps : List (SourceStatement × Nat))
    (x : SourceStatement × Nat) :
    lastLabelled label (ps ++ [x]) =
      if x.1.label = some label then some x else lastLabelled label ps := by
  unfold lastLabelled
  rw [findRev?_concat]
  simp only [beq_iff_eq]

theorem lastLabelled_eq_none_iff {label : String} {ps : List (SourceStatement × Nat)} :
    lastLabelled label ps = none ↔ ∀ x ∈ ps, x.1.label ≠ some label := by
  unfold lastLabelled
  rw [List.findRev?_eq_find?_reverse, List.find?_eq_none]
  simp only [List.mem_reverse, beq_iff_eq, ne_eq]

theorem lastLabelled_eq_some {label : String} {ps : List (SourceStatement × Nat)}
    {x : SourceStatement × Nat} (h : lastLabelled label ps = some x) :
    x ∈ ps ∧ x.1.label = some label := by
  unfold lastLabelled at h
  rw [List.findRev?_eq_find?_reverse] at h
  have hlabel := List.find?_some h
  exact ⟨List.mem_reverse.1 (List.mem_of_find?_eq_some h), beq_iff_eq.1 hlabel⟩

theorem lastLabelled_placed_eq_none_iff {label : String} {p : List SourceStatement} :
    lastLabelled label (placed p) = none ↔ ∀ t ∈ p, t.label ≠ some label := by
  rw [lastLabelled_eq_none_iff]
  constructor
  · intro h t ht
    rw [← map_fst_placed p, List.mem_map] at ht
    obtain ⟨x, hx, rfl⟩ := ht
    exact h x hx
  · intro h x hx
    have hmem : x.1 ∈ (placed p).map (·.1) := List.mem_map_of_mem hx
    rw [map_fst_placed] at hmem
    exact h x.1 hmem

def binding? (label : String) (ps : List (SourceStatement × Nat)) : Option Binding :=
  (lastLabelled label ps).map fun x => ⟨label, x.2, x.1.origin.location⟩

/-- The address of the last statement that carries a label. -/
def labelAddress? (ps : List (SourceStatement × Nat)) (label : String) : Option Int :=
  (lastLabelled label ps).map fun x => (x.2 : Int)

theorem labelAddress?_placed_eq_none_iff {label : String} {p : List SourceStatement} :
    labelAddress? (placed p) label = none ↔ ∀ t ∈ p, t.label ≠ some label := by
  rw [labelAddress?, Option.map_eq_none_iff, lastLabelled_placed_eq_none_iff]

def LabelsDistinct (p : List SourceStatement) : Prop :=
  ∀ (i j : Nat) (s t : SourceStatement) (label : String), p[i]? = some s → s.label = some label →
    p[j]? = some t → t.label = some label → i = j

theorem labelsDistinct_of_fresh {p : List SourceStatement}
    (h : ∀ (k : Nat) (s : SourceStatement) (label : String), p[k]? = some s →
      s.label = some label → lastLabelled label (placed (p.take k)) = none) :
    LabelsDistinct p := by
  have hlater : ∀ (i j : Nat) (s t : SourceStatement) (label : String), p[i]? = some s →
      s.label = some label → p[j]? = some t → t.label = some label → ¬ i < j := by
    intro i j s t label hi hs hj ht hlt
    have hmem : s ∈ p.take j := List.mem_of_getElem? (by rw [List.getElem?_take_of_lt hlt, hi])
    exact lastLabelled_placed_eq_none_iff.1 (h j t label hj ht) s hmem hs
  intro i j s t label hi hs hj ht
  have hij := hlater i j s t label hi hs hj ht
  have hji := hlater j i t s label hj ht hi hs
  omega

theorem LabelsDistinct.lastLabelled_eq {p : List SourceStatement} (h : LabelsDistinct p) {j : Nat}
    {t : SourceStatement} {label : String} {address : Nat} (hj : p[j]? = some t)
    (ht : t.label = some label) (ha : (addresses p)[j]? = some address) :
    lastLabelled label (placed p) = some (t, address) := by
  cases hlast : lastLabelled label (placed p) with
  | none => exact absurd ht (lastLabelled_placed_eq_none_iff.1 hlast t (List.mem_of_getElem? hj))
  | some x =>
    obtain ⟨hmem, hlabel⟩ := lastLabelled_eq_some hlast
    obtain ⟨i, hi, hai⟩ := mem_placed_iff.1 hmem
    obtain rfl : i = j := h i j x.1 t label hi hlabel hj ht
    have hx : x.1 = t := Option.some.inj (hi.symm.trans hj)
    have hxa : x.2 = address := Option.some.inj (hai.symm.trans ha)
    rw [← hx, ← hxa]

section Bind

variable {settings : Settings} {labels next : LabelTable} {address : Nat} {s : SourceStatement}
  {warnings : List Warning}

/-- What binding the label of a statement does to an open table: every other label stays, and a
warning names the address that the label had. -/
theorem bindLabel_eq_ok (hopen : labels.isClosed = false)
    (h : bindLabel settings labels address s = .ok (next, warnings)) :
    next.isClosed = false ∧
      (∀ label, next.find? label =
        if s.label = some label then some ⟨label, address, s.origin.location⟩
        else labels.find? label) ∧
      warnings = (s.label.bind fun label => (labels.find? label).map fun before =>
        s.warning (.rebound label before.value address)).toList ∧
      (settings.allowRebinding = false → ∀ label, s.label = some label →
        labels.find? label = none) := by
  unfold bindLabel at h
  cases hl : s.label with
  | none =>
    rw [hl] at h
    cases h
    exact ⟨hopen, fun label => by rw [if_neg nofun], rfl, nofun⟩
  | some name =>
    simp only [hl, LabelTable.define, hopen, Bool.false_eq_true, if_false] at h
    -- the label itself is replaced or added, which a look-up does not tell apart
    have hput : ∀ label, (labels.put ⟨name, address, s.origin.location⟩).find? label =
        if some name = some label then some ⟨label, address, s.origin.location⟩
        else labels.find? label := by
      intro label
      rw [LabelTable.find?_put]
      by_cases hlabel : label = name
      · subst hlabel; rw [if_pos rfl, if_pos rfl]
      · rw [if_neg hlabel, if_neg fun he => hlabel (Option.some.inj he).symm]
    cases hf : labels.find? name with
    | none =>
      simp only [hf] at h
      cases h
      refine ⟨(LabelTable.isClosed_put _ _).trans hopen, hput, ?_, ?_⟩
      · rw [Option.bind_some, hf]; rfl
      · intro _ label hlabel
        exact Option.some.inj hlabel ▸ hf
    | some before =>
      simp only [hf] at h
      cases hr : settings.allowRebinding with
      | false => rw [hr] at h; cases h
      | true =>
        rw [hr] at h
        cases h
        refine ⟨(LabelTable.isClosed_put _ _).trans hopen, hput, ?_, nofun⟩
        rw [Option.bind_some, hf]; rfl

theorem bindLabel_eq_error {d : Diagnostic} (hopen : labels.isClosed = false)
    (h : bindLabel settings labels address s = .error d) :
    settings.allowRebinding = false ∧ ∃ label before, s.label = some label ∧
      labels.find? label = some before ∧
      d = s.problem (.duplicateLabel label before.location) := by
  unfold bindLabel at h
  cases hl : s.label with
  | none => rw [hl] at h; cases h
  | some name =>
    simp only [hl, LabelTable.define, hopen, Bool.false_eq_true, if_false] at h
    cases hf : labels.find? name with
    | none => simp only [hf] at h; cases h
    | some before =>
      simp only [hf] at h
      cases hr : settings.allowRebinding with
      | true => rw [hr] at h; cases h
      | false =>
        rw [hr] at h
        cases h
        exact ⟨rfl, name, before, rfl, hf, rfl⟩

end Bind

section Run

variable {settings : Settings} {p : List SourceStatement} {es : List Event} {state : State}

theorem run_isClosed (h : Pass.Run (step settings) {} p es state) :
    state.labels.isClosed = false := by
  induction h with
  | nil => rfl
  | snoc _ hs ih => exact (bindLabel_eq_ok ih (step_eq_ok hs).2.1).1

/-- The table after a run holds each label at the last statement that carries it. -/
theorem run_find? (h : Pass.Run (step settings) {} p es state) (label : String) :
    state.labels.find? label = binding? label (placed p) := by
  induction h with
  | nil => rfl
  | @snoc p es state s e next hrun hs ih =>
    -- a statement with the label hides every one before it, and any other leaves the table as it is
    rw [(bindLabel_eq_ok (run_isClosed hrun) (step_eq_ok hs).2.1).2.1, placed_concat, binding?,
      lastLabelled_concat, ih, address_of_step hrun hs]
    split <;> rfl

theorem run_value? (h : Pass.Run (step settings) {} p es state) :
    state.labels.close.value? = labelAddress? (placed p) := by
  funext label
  change (state.labels.find? label).map (·.value) = _
  rw [run_find? h, binding?, labelAddress?, Option.map_map]
  rfl

theorem label_fresh_of_step {next : State} {s : SourceStatement} {e : Event} {label : String}
    (h : Pass.Run (step settings) {} p es state) (hs : step settings state s = .ok (e, next))
    (hr : settings.allowRebinding = false) (hl : s.label = some label) :
    lastLabelled label (placed p) = none := by
  have hfree := (bindLabel_eq_ok (run_isClosed h) (step_eq_ok hs).2.1).2.2.2 hr label hl
  rwa [run_find? h, binding?, Option.map_eq_none_iff] at hfree

theorem run_labelsDistinct (h : Pass.Run (step settings) {} p es state)
    (hr : settings.allowRebinding = false) : LabelsDistinct p := by
  apply labelsDistinct_of_fresh
  intro k s label hk hl
  obtain ⟨e, mid, next, -, hmid, hstep⟩ := h.at hk
  exact label_fresh_of_step hmid hstep hr hl

end Run

end Layout

end TwoPass
