import Mathlib.Data.List.Induction
import Mathlib.Data.List.Nodup
import TwoPass.Proofs.Comparison
import TwoPass.Proofs.Refusals
import TwoPass.Proofs.Resolution

/-!
# Blocks

A block starts with an origin and does not end the program, so that nothing before it reaches its
addresses. Whether a program of blocks is assembled, what its labels stand for and which words each
block stores are read off the placed statements, in whatever order these come: blocks may change
places where labels may not be defined twice.
-/

namespace TwoPass

/-- Statements that start with an origin and do not end the program. -/
structure Block where
  statements : List SourceStatement
  headed : statements.head?.map (·.op) = some .org
  endless : ∀ s ∈ statements, s.op ≠ .fin

/-- The statements of blocks, one block after the other. -/
def Block.program (blocks : List Block) : List SourceStatement :=
  blocks.flatMap (·.statements)

theorem throughEnd_of_endless {p : List SourceStatement} (h : ∀ s ∈ p, s.op ≠ .fin) :
    throughEnd p = p := by
  induction p with
  | nil => rfl
  | cons s rest ih =>
    rw [throughEnd, if_neg (h s List.mem_cons_self), ih]
    intro t ht
    exact h t (List.mem_cons_of_mem s ht)

theorem Block.program_endless (blocks : List Block) : ∀ s ∈ program blocks, s.op ≠ .fin := by
  intro s hs
  obtain ⟨block, -, hmem⟩ := List.mem_flatMap.1 hs
  exact block.endless s hmem

theorem Block.throughEnd_program (blocks : List Block) :
    throughEnd (program blocks) = program blocks :=
  throughEnd_of_endless (program_endless blocks)

namespace Layout

-- an origin sets the counter, whatever it was
theorem counterAfter_append_origin {s : SourceStatement} (horg : s.op = .org)
    (p rest : List SourceStatement) :
    counterAfter (p ++ s :: rest) = counterAfter (s :: rest) := by
  have hset : ∀ counter, advance (addressOf counter s) s = advance s.originValue s := by
    intro counter
    rw [addressOf, if_pos horg]
  unfold counterAfter
  rw [List.foldl_append, List.foldl_cons, List.foldl_cons, hset, hset]

theorem placed_append_origin {s : SourceStatement} (horg : s.op = .org)
    (p rest : List SourceStatement) :
    placed (p ++ s :: rest) = placed p ++ placed (s :: rest) := by
  induction rest using List.reverseRecOn with
  | nil =>
    have haddress : ∀ counter, addressOf counter s = s.originValue := fun _ => if_pos horg
    have hone : placed [s] = [(s, s.originValue)] := by
      change placed ([] ++ [s]) = _
      rw [placed_concat, haddress]
      rfl
    rw [placed_concat, haddress, hone]
  | append_singleton rest t ih =>
    -- the counter before `t` is that of its own block, so its address is too
    rw [← List.cons_append, ← List.append_assoc, placed_concat, ih, placed_concat,
      counterAfter_append_origin horg, List.append_assoc]

theorem placed_append_block (p : List SourceStatement) (block : Block) :
    placed (p ++ block.statements) = placed p ++ placed block.statements := by
  have hheaded := block.headed
  cases hs : block.statements with
  | nil =>
    rw [hs] at hheaded
    cases hheaded
  | cons s rest =>
    rw [hs] at hheaded
    exact placed_append_origin (Option.some.inj hheaded) p rest

/-- Every block is placed as if it stood alone. -/
theorem placed_program (blocks : List Block) :
    placed (Block.program blocks) = blocks.flatMap fun block => placed block.statements := by
  unfold Block.program
  induction blocks using List.reverseRecOn with
  | nil => rfl
  | append_singleton blocks block ih =>
    rw [List.flatMap_append, List.flatMap_singleton, placed_append_block, ih, List.flatMap_append,
      List.flatMap_singleton]

theorem placed_program_perm {blocks blocks' : List Block} (h : blocks.Perm blocks') :
    (placed (Block.program blocks)).Perm (placed (Block.program blocks')) := by
  rw [placed_program, placed_program]
  exact h.flatMap_right _

theorem labelsDistinct_iff_nodup {p : List SourceStatement} :
    LabelsDistinct p ↔ (p.filterMap (·.label)).Nodup := by
  unfold List.Nodup
  rw [List.pairwise_filterMap, List.pairwise_iff_getElem]
  constructor
  · intro h i j hi hj hlt label hl label' hl' heq
    subst heq
    have hij := h i j p[i] p[j] label (List.getElem?_eq_getElem hi) hl
      (List.getElem?_eq_getElem hj) hl'
    omega
  · intro h i j s t label hi hs hj ht
    obtain ⟨hilt, rfl⟩ := List.getElem?_eq_some_iff.1 hi
    obtain ⟨hjlt, rfl⟩ := List.getElem?_eq_some_iff.1 hj
    by_contra hne
    rcases Nat.lt_or_gt_of_ne hne with hlt | hgt
    · exact h i j hilt hjlt hlt label hs label ht rfl
    · exact h j i hjlt hilt hgt label ht label hs rfl

theorem LabelsDistinct.lastLabelled_eq_some_iff {p : List SourceStatement} (h : LabelsDistinct p)
    {label : String} {x : SourceStatement × Nat} :
    lastLabelled label (placed p) = some x ↔ x ∈ placed p ∧ x.1.label = some label := by
  constructor
  · exact lastLabelled_eq_some
  · intro hx
    obtain ⟨k, hk, ha⟩ := mem_placed_iff.1 hx.1
    exact h.lastLabelled_eq hk hx.2 ha

theorem labelAddress?_perm {p q : List SourceStatement} (h : (placed p).Perm (placed q))
    (hp : LabelsDistinct p) (hq : LabelsDistinct q) :
    labelAddress? (placed p) = labelAddress? (placed q) := by
  funext label
  -- the last statement with a label is the only one, and membership does not see the order
  have hlast : lastLabelled label (placed p) = lastLabelled label (placed q) := by
    apply Option.ext
    intro x
    rw [hp.lastLabelled_eq_some_iff, hq.lastLabelled_eq_some_iff, h.mem_iff]
  rw [labelAddress?, labelAddress?, hlast]

section Refused

variable {settings : Settings} {p : List SourceStatement}

theorem labelsDistinct_iff_not_repeats (hr : settings.allowRebinding = false) :
    LabelsDistinct p ↔ ∀ (k : Nat) (s : SourceStatement), p[k]? = some s →
      ¬ Repeats settings (p.take k) s := by
  constructor
  · rintro h k s hk ⟨-, label, hl, t, ht, htl⟩
    obtain ⟨j, hj⟩ := List.mem_iff_getElem?.1 ht
    rw [List.getElem?_take] at hj
    split at hj
    · rename_i hlt
      have hjk := h j k t s label hj htl hk hl
      omega
    · cases hj
  · intro h
    apply labelsDistinct_of_fresh
    intro k s label hk hl
    rw [lastLabelled_placed_eq_none_iff]
    intro t ht htl
    exact h k s hk ⟨hr, label, hl, t, ht, htl⟩

/-- The first pass refuses nothing exactly if every origin can be read, every address is in range
and no label stands twice. The order of the statements matters only to their addresses. -/
theorem not_refusedAt_iff (hr : settings.allowRebinding = false) (hend : ∀ s ∈ p, s.op ≠ .fin) :
    (∀ k, ¬ RefusedAt settings p k) ↔
      (∀ x ∈ placed p, (x.1.op = .org → IsHexLiteral x.1.operand) ∧ x.2 ≤ wordMax) ∧
      (p.filterMap (·.label)).Nodup := by
  rw [← labelsDistinct_iff_nodup, labelsDistinct_iff_not_repeats hr]
  constructor
  · intro h
    refine ⟨?_, ?_⟩
    · intro x hx
      obtain ⟨k, hk, ha⟩ := mem_placed_iff.1 hx
      have hrefused : ¬ Refused settings (p.take k) x.1 := fun hbad => h k ⟨x.1, hk, hbad⟩
      have haddress : addressOf (counterAfter (p.take k)) x.1 = x.2 := by
        rw [getElem?_addresses, hk] at ha
        exact Option.some.inj ha
      refine ⟨not_badOrigin_iff.1 fun hbad => hrefused (Or.inl hbad), ?_⟩
      -- only an end may stand beyond the last address
      have hrange := not_overflows_iff.1 fun hbad => hrefused (Or.inr (Or.inl hbad))
      rw [haddress] at hrange
      exact hrange.resolve_right fun hfin => hend x.1 (List.mem_of_getElem? hk) hfin.1
    · intro k s hk hbad
      exact h k ⟨s, hk, Or.inr (Or.inr hbad)⟩
  · rintro ⟨hplaced, hfresh⟩ k ⟨s, hk, hbad⟩
    obtain ⟨horigin, hrange⟩ := hplaced _ (List.mem_of_getElem? (getElem?_placed hk))
    rcases hbad with hbad | hbad | hbad
    · exact not_badOrigin_iff.2 horigin hbad
    · exact not_overflows_iff.2 (Or.inl hrange) hbad
    · exact hfresh k s hk hbad

end Refused

end Layout

theorem unencodable_congr {settings : Settings} {p q : List SourceStatement}
    (h : ∀ t, t ∈ p ↔ t ∈ q) (s : SourceStatement) :
    Unencodable settings p s ↔ Unencodable settings q s := by
  simp only [Unencodable, h]

/-- What placed statements need to be assembled where labels may not move, in whatever order they
come. -/
structure Acceptable (settings : Settings) (ps : List (SourceStatement × Nat)) : Prop where
  placeable : ∀ x ∈ ps, (x.1.op = .org → IsHexLiteral x.1.operand) ∧ x.2 ≤ wordMax
  distinct : ((ps.map (·.1)).filterMap (·.label)).Nodup
  encodable : ∀ x ∈ ps, ¬ Unencodable settings (ps.map (·.1)) x.1

theorem Acceptable.perm {settings : Settings} {ps qs : List (SourceStatement × Nat)}
    (h : ps.Perm qs) (hps : Acceptable settings ps) : Acceptable settings qs := by
  have hstatements : (ps.map (·.1)).Perm (qs.map (·.1)) := h.map _
  refine ⟨?_, ?_, ?_⟩
  · intro x hx
    exact hps.placeable x (h.mem_iff.2 hx)
  · exact (hstatements.filterMap _).nodup_iff.1 hps.distinct
  · intro x hx
    rw [← unencodable_congr fun t => hstatements.mem_iff]
    exact hps.encodable x (h.mem_iff.2 hx)

namespace LabelTable

theorem mem_of_find? {t : LabelTable} {label : String} {b : Binding} (h : t.find? label = some b) :
    b ∈ t.bindings ∧ b.label = label := by
  unfold find? at h
  have hlabel := List.find?_some h
  exact ⟨List.mem_of_find?_eq_some h, beq_iff_eq.1 hlabel⟩

theorem find?_of_mem {t : LabelTable} {b : Binding} (h : b ∈ t.bindings) :
    t.find? b.label = some b := by
  cases hf : t.find? b.label with
  | none => exact absurd (beq_self_eq_true b.label) (List.find?_eq_none.1 hf b h)
  | some c =>
    obtain ⟨hmem, hlabel⟩ := mem_of_find? hf
    rw [List.inj_on_of_nodup_map t.distinct hmem h hlabel]

theorem mem_labels_iff {t : LabelTable} {label : String} :
    label ∈ t.labels ↔ ∃ value, t.value? label = some value := by
  constructor
  · intro h
    obtain ⟨b, hb, rfl⟩ := List.mem_map.1 h
    exact ⟨b.value, by rw [value?, find?_of_mem hb]; rfl⟩
  · rintro ⟨value, hv⟩
    obtain ⟨b, hb, -⟩ := Option.map_eq_some_iff.1 hv
    exact List.mem_map.2 ⟨b, mem_of_find? hb⟩

/-- Tables that give every label the same address agree, in whatever order they bind them. -/
theorem agrees_of_value?_eq {t u : LabelTable} (h : t.value? = u.value?) : t.agrees u = true := by
  have hlabels : t.labels.Perm u.labels := by
    apply (List.perm_ext_iff_of_nodup t.distinct u.distinct).2
    intro label
    change label ∈ t.labels ↔ label ∈ u.labels
    rw [mem_labels_iff, mem_labels_iff, h]
  have hsize : t.size = u.size := by
    have hlength := hlabels.length_eq
    unfold labels at hlength
    rwa [List.length_map, List.length_map] at hlength
  have hvalues : ∀ b ∈ t.bindings, (u.value? b.label == some b.value) = true := by
    intro b hb
    rw [← h, value?, find?_of_mem hb]
    exact beq_self_eq_true _
  unfold agrees
  rw [hsize, beq_self_eq_true, Bool.true_and]
  exact List.all_eq_true.2 hvalues

end LabelTable

section Labels

variable {settings : Settings} {labels labels' : LabelTable}

/-- A table enters an encoding only by the addresses it gives: the similar labels of a refusal are
not part of a word. -/
theorem SourceStatement.encode_congr_value? (hv : labels.value? = labels'.value?)
    {s : SourceStatement} {r : Word × List Warning} (h : s.encode settings labels = .ok r) :
    s.encode settings labels' = .ok r := by
  refine encode_of_referredAddress ?_ h
  intro referred href
  unfold referredAddress at href ⊢
  cases ho : s.operand with
  | none =>
    rw [ho] at href
    exact href
  | some label =>
    simp only [ho, hv] at href
    cases hl : labels'.value? label with
    | some address =>
      simp only [hl] at href ⊢
      exact href
    | none =>
      simp only [hl] at href ⊢
      have hsame : settings.Tolerates settings := ⟨id, id⟩
      exact hsame.unless_strict href

namespace Emission

/-- The word that a placed statement stores, if it stores one. -/
def cellAt (settings : Settings) (labels : LabelTable) (x : SourceStatement × Nat) : Option Cell :=
  if x.1.Stores then
    match x.1.encode settings labels with
    | .ok (word, _) => some ⟨x.2, word, x.1⟩
    | .error _ => none
  else none

theorem cellAt_of_encode {s : SourceStatement} (hs : s.Stores) {r : Word × List Warning}
    (h : s.encode settings labels = .ok r) (address : Nat) :
    cellAt settings labels (s, address) = some ⟨address, r.1, s⟩ := by
  unfold cellAt
  rw [if_pos hs, h]

theorem cellAt_of_not_stores {s : SourceStatement} (hs : ¬ s.Stores) (address : Nat) :
    cellAt settings labels (s, address) = none :=
  if_neg hs

theorem cellAt_congr_value? (hv : labels.value? = labels'.value?) :
    cellAt settings labels = cellAt settings labels' := by
  funext x
  unfold cellAt
  by_cases hs : x.1.Stores
  · rw [if_pos hs, if_pos hs]
    cases he : x.1.encode settings labels with
    | ok r => rw [SourceStatement.encode_congr_value? hv he]
    | error f =>
      cases he' : x.1.encode settings labels' with
      | error f' => rfl
      | ok r =>
        rw [SourceStatement.encode_congr_value? hv.symm he'] at he
        cases he
  · rw [if_neg hs, if_neg hs]

theorem run_cells {p : List SourceStatement} {es : List Event} {counter : Nat}
    (h : Pass.Run (step settings labels) 0 p es counter) :
    es.filterMap (·.cell) = (Layout.placed p).filterMap (cellAt settings labels) := by
  induction h with
  | nil => rfl
  | @snoc p es counter s e next hrun hstep ih =>
    obtain ⟨haddress, -, hstored, hnone⟩ := step_eq_ok hstep
    have hcell : e.cell =
        cellAt settings labels (s, Layout.addressOf (Layout.counterAfter p) s) := by
      rw [← run_counter hrun, ← haddress]
      by_cases hs : s.Stores
      · obtain ⟨word, hword, hcell⟩ := hstored hs
        rw [hcell, cellAt_of_encode hs hword]
      · rw [(hnone hs).1, cellAt_of_not_stores hs]
    rw [List.filterMap_append, ih, Layout.placed_concat, List.filterMap_append]
    simp only [List.filterMap_cons, List.filterMap_nil, hcell]

/-- Statements that can be encoded store one word each, in their order. -/
theorem statements_of_cells {p : List SourceStatement}
    (h : ∀ s ∈ p, s.Stores → ∃ r, s.encode settings labels = .ok r) :
    ((Layout.placed p).filterMap (cellAt settings labels)).map (·.statement) =
      p.filter (·.Stores) := by
  induction p using List.reverseRecOn with
  | nil => rfl
  | append_singleton p s ih =>
    have hbefore := ih fun t ht => h t (List.mem_append_left [s] ht)
    rw [Layout.placed_concat, List.filterMap_append, List.map_append, hbefore, List.filter_append]
    congr 1
    by_cases hs : s.Stores
    · obtain ⟨r, hr⟩ := h s (List.mem_append_right p List.mem_cons_self) hs
      simp [cellAt_of_encode hs hr, hs]
    · simp [cellAt_of_not_stores hs, hs]

end Emission

end Labels

namespace Assembly

variable {settings : Settings} {p : List SourceStatement} {a : Assembly}

theorem assemble_eq_error_iff_of_endless (hend : ∀ s ∈ p, s.op ≠ .fin) :
    (∃ f, assemble settings p = .error f) ↔
      (∃ k, Layout.RefusedAt settings p k) ∨ ∃ s ∈ p, Unencodable settings p s := by
  have hfails : (∃ f, assemble settings p = .error f) ↔
      (∃ d, (ofStatements p).layOut settings = .error d) ∨
      ∃ s ∈ throughEnd p, Unencodable settings (throughEnd p) s :=
    assemble_eq_error_iff (a := ofStatements p)
  have hlaid : (∃ d, (ofStatements p).layOut settings = .error d) ↔
      ∃ k, Layout.RefusedAt settings (throughEnd p) k :=
    layOut_eq_error_iff (a := ofStatements p)
  rw [hfails, hlaid, throughEnd_of_endless hend]

theorem exists_assemble_iff_acceptable (hr : settings.allowRebinding = false)
    (hend : ∀ s ∈ p, s.op ≠ .fin) :
    (∃ a, assemble settings p = .ok a) ↔ Acceptable settings (Layout.placed p) := by
  have hok : (∃ a, assemble settings p = .ok a) ↔ ¬ ∃ f, assemble settings p = .error f := by
    cases assemble settings p <;> simp
  rw [hok, assemble_eq_error_iff_of_endless hend, not_or, not_exists,
    Layout.not_refusedAt_iff hr hend]
  constructor
  · rintro ⟨⟨hplaced, hdistinct⟩, hencodable⟩
    refine ⟨hplaced, ?_, ?_⟩
    · rw [Layout.map_fst_placed]
      exact hdistinct
    · intro x hx hbad
      have hmem : x.1 ∈ (Layout.placed p).map (·.1) := List.mem_map_of_mem hx
      rw [Layout.map_fst_placed] at hmem hbad
      exact hencodable ⟨x.1, hmem, hbad⟩
  · rintro ⟨hplaced, hdistinct, hencodable⟩
    rw [Layout.map_fst_placed] at hdistinct hencodable
    refine ⟨⟨hplaced, hdistinct⟩, ?_⟩
    rintro ⟨s, hs, hbad⟩
    obtain ⟨k, hk⟩ := List.mem_iff_getElem?.1 hs
    exact hencodable _ (List.mem_of_getElem? (Layout.getElem?_placed hk)) hbad

theorem cells_of_assemble (h : assemble settings p = .ok a) :
    a.cells = (Layout.placed (throughEnd p)).filterMap (Emission.cellAt settings a.labels) := by
  obtain ⟨es, state, es', counter, -, hrun, rfl⟩ := assemble_eq_ok h
  exact Emission.run_cells hrun

theorem encode_of_assemble (h : assemble settings p = .ok a) {s : SourceStatement}
    (hs : s ∈ throughEnd p) (hstores : s.Stores) : ∃ r, s.encode settings a.labels = .ok r := by
  obtain ⟨es, state, es', counter, -, hrun, rfl⟩ := assemble_eq_ok h
  obtain ⟨k, hk⟩ := List.mem_iff_getElem?.1 hs
  exact Emission.run_encode hrun hk hstores

theorem labelsDistinct_of_assemble (h : assemble settings p = .ok a)
    (hr : settings.allowRebinding = false) : Layout.LabelsDistinct (throughEnd p) := by
  obtain ⟨es, state, es', counter, hrun, -, rfl⟩ := assemble_eq_ok h
  exact Layout.run_labelsDistinct hrun hr

section Blocks

variable {blocks blocks' : List Block} {a' : Assembly}

theorem exists_assemble_of_perm (hr : settings.allowRebinding = false) (hp : blocks.Perm blocks')
    (h : ∃ a, assemble settings (Block.program blocks) = .ok a) :
    ∃ a', assemble settings (Block.program blocks') = .ok a' := by
  rw [exists_assemble_iff_acceptable hr (Block.program_endless _)] at h ⊢
  exact h.perm (Layout.placed_program_perm hp)

theorem value?_of_perm (hr : settings.allowRebinding = false) (hp : blocks.Perm blocks')
    (h : assemble settings (Block.program blocks) = .ok a)
    (h' : assemble settings (Block.program blocks') = .ok a') :
    a.labels.value? = a'.labels.value? := by
  have hd := labelsDistinct_of_assemble h hr
  have hd' := labelsDistinct_of_assemble h' hr
  rw [Block.throughEnd_program] at hd hd'
  rw [value?_of_assemble h, value?_of_assemble h', Block.throughEnd_program,
    Block.throughEnd_program]
  exact Layout.labelAddress?_perm (Layout.placed_program_perm hp) hd hd'

/-- The words of a program of blocks are those of its blocks, one after the other. -/
theorem cells_of_blocks (h : assemble settings (Block.program blocks) = .ok a) :
    a.cells = blocks.flatMap fun block =>
      (Layout.placed block.statements).filterMap (Emission.cellAt settings a.labels) := by
  rw [cells_of_assemble h, Block.throughEnd_program, Layout.placed_program,
    List.filterMap_flatMap]

/-- Where labels may not be defined twice, blocks may change places. They are assembled in one order
if they are in the other, to tables that agree, and every block stores the same words at the same
addresses: one for each of its statements that stores one, and the blocks' words in the order of
the blocks. -/
theorem assemble_blocks_perm (hr : settings.allowRebinding = false) (hp : blocks.Perm blocks') :
    ((∃ a, assemble settings (Block.program blocks) = .ok a) ↔
      ∃ a', assemble settings (Block.program blocks') = .ok a') ∧
    ∀ a a', assemble settings (Block.program blocks) = .ok a →
      assemble settings (Block.program blocks') = .ok a' →
      a.labels.agrees a'.labels = true ∧
      (∀ label, a.labels.value? label = a'.labels.value? label) ∧
      ∃ cells : Block → List Cell,
        (∀ block ∈ blocks, (cells block).map (·.statement) = block.statements.filter (·.Stores)) ∧
        a.cells = blocks.flatMap cells ∧ a'.cells = blocks'.flatMap cells := by
  refine ⟨⟨exists_assemble_of_perm hr hp, exists_assemble_of_perm hr hp.symm⟩, ?_⟩
  intro a a' h h'
  have hvalue := value?_of_perm hr hp h h'
  refine ⟨LabelTable.agrees_of_value?_eq hvalue, congrFun hvalue, _, ?_, cells_of_blocks h, ?_⟩
  · intro block hblock
    apply Emission.statements_of_cells
    intro s hs hstores
    have hmem : s ∈ throughEnd (Block.program blocks) := by
      rw [Block.throughEnd_program]
      exact List.mem_flatMap.2 ⟨block, hblock, hs⟩
    exact encode_of_assemble h hmem hstores
  · -- the two tables give the same words, since they give the same addresses
    rw [cells_of_blocks h', Emission.cellAt_congr_value? hvalue]

/-- A block that refers to a label of `lowBlock`, from beyond the addresses that a word can hold. -/
def highBlock : Block :=
  ⟨[⟨⟨none, .org, some "1000", false⟩, {}⟩,
    ⟨⟨some "HIGH", .memory .lda, some "LOW", false⟩, {}⟩,
    ⟨⟨none, .register .hlt, none, false⟩, {}⟩], rfl, by decide⟩

/-- A block of two sections that refers to a label of `highBlock` and to one of its own. -/
def lowBlock : Block :=
  ⟨[⟨⟨some "BASE", .org, some "20", false⟩, {}⟩,
    ⟨⟨some "LOW", .directive .hexadecimal, some "7", false⟩, {}⟩,
    ⟨⟨none, .org, some "10", false⟩, {}⟩,
    ⟨⟨none, .memory .bun, some "HIGH", true⟩, {}⟩,
    ⟨⟨none, .memory .sta, some "BASE", false⟩, {}⟩], rfl, by decide⟩

theorem assemble_blocks_perm_of_two_blocks :
    ∃ a a', assemble {} (Block.program [highBlock, lowBlock]) = .ok a ∧
      assemble {} (Block.program [lowBlock, highBlock]) = .ok a' ∧
      a.labels.labels = ["HIGH", "BASE", "LOW"] ∧ a'.labels.labels = ["BASE", "LOW", "HIGH"] ∧
      a.labels.agrees a'.labels = true ∧
      ∃ high low : List Cell, a.cells = high ++ low ∧ a'.cells = low ++ high ∧
        high.map (·.statement) = highBlock.statements.filter (·.Stores) ∧
        low.map (·.statement) = lowBlock.statements.filter (·.Stores) := by
  have hswap : [highBlock, lowBlock].Perm [lowBlock, highBlock] := List.Perm.swap ..
  have hfixed : ({} : Settings).allowRebinding = false := rfl
  obtain ⟨hiff, hsame⟩ := assemble_blocks_perm hfixed hswap
  obtain ⟨a, ha⟩ : ∃ a, assemble {} (Block.program [highBlock, lowBlock]) = .ok a := ⟨_, rfl⟩
  obtain ⟨a', ha'⟩ := hiff.1 ⟨a, ha⟩
  obtain ⟨hagrees, -, cells, hstatements, hcells, hcells'⟩ := hsame a a' ha ha'
  have hlabels : a.labels.labels = ["HIGH", "BASE", "LOW"] := by
    cases ha
    rfl
  have hlabels' : a'.labels.labels = ["BASE", "LOW", "HIGH"] := by
    cases ha'
    rfl
  refine ⟨a, a', ha, ha', hlabels, hlabels', hagrees, cells highBlock, cells lowBlock, ?_, ?_, ?_,
    ?_⟩
  · rw [hcells]
    simp
  · rw [hcells']
    simp
  · exact hstatements highBlock (by simp)
  · exact hstatements lowBlock (by simp)

end Blocks

end Assembly

end TwoPass
