import Mathlib.Data.List.Basic
import TwoPass.Proofs.Resolution

/-!
# Warnings

The warnings of an assembly are those of its first pass and then those of its second, each in the
order of the statements. The first pass warns once for each label that it moves, the second once
for each statement whose word is not the one that was asked for, and neither warns of anything else.
-/

namespace TwoPass

namespace Layout

/-- A statement that defines a label again, where the label stood last before it and where it stands
now. -/
structure Redefinition where
  statement : SourceStatement
  label : String
  before : Nat
  after : Nat

def Redefinition.warning (r : Redefinition) : Warning :=
  r.statement.warning (.rebound r.label r.before r.after)

/-- The redefinition by a statement at an address, after others. -/
def redefinition? (before : List (SourceStatement × Nat)) (s : SourceStatement) (address : Nat) :
    Option Redefinition :=
  s.label.bind fun label => (lastLabelled label before).map fun x => ⟨s, label, x.2, address⟩

def redefinitions (ps : List (SourceStatement × Nat)) : List Redefinition :=
  ps.zipIdx.filterMap fun x => redefinition? (ps.take x.2) x.1.1 x.1.2

theorem mem_redefinitions_iff {ps : List (SourceStatement × Nat)} {r : Redefinition} :
    r ∈ redefinitions ps ↔ ∃ k t, ps[k]? = some (r.statement, r.after) ∧
      r.statement.label = some r.label ∧
      lastLabelled r.label (ps.take k) = some (t, r.before) := by
  unfold redefinitions
  rw [List.mem_filterMap]
  constructor
  · rintro ⟨⟨⟨s, address⟩, k⟩, hx, hr⟩
    simp only [redefinition?, Option.bind_eq_some_iff, Option.map_eq_some_iff] at hr
    obtain ⟨label, hlabel, x, hlast, rfl⟩ := hr
    exact ⟨k, x.1, List.mk_mem_zipIdx_iff_getElem?.1 hx, hlabel, hlast⟩
  · rintro ⟨k, t, hk, hlabel, hlast⟩
    refine ⟨((r.statement, r.after), k), List.mk_mem_zipIdx_iff_getElem?.2 hk, ?_⟩
    simp only [redefinition?, hlabel, Option.bind_some, hlast, Option.map_some]

theorem redefinitions_concat (ps : List (SourceStatement × Nat)) (x : SourceStatement × Nat) :
    redefinitions (ps ++ [x]) = redefinitions ps ++ (redefinition? ps x.1 x.2).toList := by
  unfold redefinitions
  rw [List.zipIdx_append, List.filterMap_append]
  congr 1
  · apply List.filterMap_congr
    rintro ⟨y, k⟩ hk
    have hlt : k < ps.length := (List.mem_zipIdx' hk).1
    simp only [List.take_append_of_le_length (Nat.le_of_lt hlt)]
  · rw [List.zipIdx_singleton, Nat.zero_add]
    simp only [List.filterMap_cons, List.take_left, List.filterMap_nil]
    cases redefinition? ps x.1 x.2 <;> rfl

section Run

variable {settings : Settings} {p : List SourceStatement} {es : List Event} {state : State}

theorem run_warnings (h : Pass.Run (step settings) {} p es state) :
    es.flatMap (·.warnings) = (redefinitions (placed p)).map (·.warning) := by
  induction h with
  | nil => rfl
  | @snoc p es state s e next hrun hs ih =>
    -- the table before the statement holds the last address of its label, if there is one
    have hwarnings : e.warnings =
        ((redefinition? (placed p) s e.address).map (·.warning)).toList := by
      rw [(bindLabel_eq_ok (run_isClosed hrun) (step_eq_ok hs).2.1).2.2.1, redefinition?]
      simp only [run_find? hrun, binding?, Option.map_bind, Function.comp_def, Option.map_map]
      rfl
    rw [List.flatMap_append, ih, List.flatMap_singleton, hwarnings, address_of_step hrun hs,
      placed_concat, redefinitions_concat, List.map_append, Option.toList_map]

end Run

theorem labelsDistinct_of_redefinitions_eq_nil {p : List SourceStatement}
    (h : redefinitions (placed p) = []) : LabelsDistinct p := by
  apply labelsDistinct_of_fresh
  intro k s label hk hl
  rw [← take_placed]
  cases hlast : lastLabelled label ((placed p).take k) with
  | none => rfl
  | some x =>
    have hmem : ⟨s, label, x.2, _⟩ ∈ redefinitions (placed p) :=
      mem_redefinitions_iff.2 ⟨k, x.1, getElem?_placed hk, hl, hlast⟩
    rw [h] at hmem
    cases hmem

end Layout

namespace Emission

variable {settings : Settings} {labels : LabelTable} {p : List SourceStatement} {es : List Event}
  {counter : Nat}

theorem run_warnings (h : Pass.Run (step settings labels) 0 p es counter) :
    es.flatMap (·.warnings) = p.filterMap (·.remark? labels.value?) := by
  induction h with
  | nil => rfl
  | @snoc p es state s e next _ hs ih =>
    obtain ⟨-, -, hstored, hnone⟩ := step_eq_ok hs
    have hwarnings : e.warnings = (s.remark? labels.value?).toList := by
      by_cases hst : s.Stores
      · obtain ⟨word, hword, -⟩ := hstored hst
        exact SourceStatement.warnings_of_encode hword
      · -- origins and ends are directives, about which nothing is remarked
        rw [(hnone hst).2]
        by_cases horg : s.op = .org
        · rw [SourceStatement.remark?_of_directive horg]
          rfl
        · have hfin : s.op = .fin := Classical.byContradiction fun hne => hst ⟨horg, hne⟩
          rw [SourceStatement.remark?_of_directive hfin]
          rfl
    rw [List.flatMap_append, ih, List.flatMap_singleton, List.filterMap_append, hwarnings]
    cases hr : s.remark? labels.value? <;> simp [hr]

end Emission

theorem SourceStatement.exists_label_of_remark?_eq_none {find : String → Option Int}
    {s : SourceStatement} {op : MemoryOp} (hop : s.op = .memory op) (h : s.remark? find = none) :
    ∃ label address, s.operand = some label ∧ find label = some address ∧
      address ≤ addressMax := by
  unfold SourceStatement.remark? at h
  rw [hop] at h
  cases ho : s.operand with
  | none => rw [ho] at h; cases h
  | some label =>
    rw [ho] at h
    cases hf : find label with
    | none => simp only [hf] at h; cases h
    | some address =>
      simp only [hf] at h
      split at h
      · cases h
      · rename_i hle
        exact ⟨label, address, rfl, hf, Int.not_lt.1 hle⟩

namespace Assembly

variable {settings : Settings} {p : List SourceStatement} {a : Assembly}

theorem warnings_of_assemble (h : assemble settings p = .ok a) :
    a.warnings = (Layout.redefinitions (Layout.placed (throughEnd p))).map (·.warning) ++
      (throughEnd p).filterMap (·.remark? a.labels.value?) := by
  obtain ⟨es, state, es', counter, hrun, hrun', rfl⟩ := assemble_eq_ok h
  rw [← Layout.run_warnings hrun, ← Emission.run_warnings hrun']

end Assembly

end TwoPass
