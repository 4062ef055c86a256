import TwoPass.Proofs.Bindings
import TwoPass.Proofs.Encodings

/-!
# Resolution of labels

The second pass stores one word for each statement that has one, in their order, and a memory
reference is stored with the address that the first pass gave the statement its operand names.
-/

namespace TwoPass

namespace Emission

variable {settings : Settings} {labels : LabelTable} {p : List SourceStatement} {es : List Event}
  {counter : Nat}

theorem run_length_cells (h : Pass.Run (step settings labels) 0 p es counter) :
    (es.filterMap (·.cell)).length = p.countP (·.Stores) := by
  induction h with
  | nil => rfl
  | @snoc p es counter s e next _ hstep ih =>
    rw [List.filterMap_append, List.length_append, ih, List.countP_append]
    obtain ⟨-, -, hstored, hnone⟩ := step_eq_ok hstep
    by_cases hs : s.Stores
    · obtain ⟨word, -, hcell⟩ := hstored hs
      simp [hcell, hs]
    · simp [(hnone hs).1, hs]

/-- The word of a statement comes after those of the statements before it. -/
theorem run_cell (h : Pass.Run (step settings labels) 0 p es counter) {k : Nat}
    {s : SourceStatement} (hk : p[k]? = some s) (hs : s.Stores) :
    ∃ word warnings, s.encode settings labels = .ok (word, warnings) ∧
      (es.filterMap (·.cell))[(p.take k).countP (·.Stores)]? =
        some ⟨Layout.addressOf (Layout.counterAfter (p.take k)) s, word, s⟩ := by
  obtain ⟨e, mid, next, he, hmid, hstep⟩ := h.at hk
  obtain ⟨haddress, -, hstored, -⟩ := step_eq_ok hstep
  obtain ⟨word, hword, hcell⟩ := hstored hs
  refine ⟨word, e.warnings, hword, ?_⟩
  -- the cells before this one are those of the events before it, one for each word
  have hsplit : es = es.take k ++ e :: es.drop (k + 1) := by
    obtain ⟨hlt, rfl⟩ := List.getElem?_eq_some_iff.1 he
    rw [List.getElem_cons_drop, List.take_append_drop]
  have hbefore := run_length_cells hmid
  rw [hsplit, List.filterMap_append, List.getElem?_append_right (by omega), hbefore, Nat.sub_self,
    List.filterMap_cons, hcell, haddress, run_counter hmid]
  rfl

end Emission

namespace Assembly

/-- The word that an assembly stores for a statement, which is given by its place in the
program. -/
def cellOf? (a : Assembly) (k : Nat) : Option Cell :=
  match (throughEnd a.statements)[k]? with
  | some s =>
    if s.Stores then a.cells[((throughEnd a.statements).take k).countP (·.Stores)]? else none
  | none => none

section Assembled

variable {settings : Settings} {p : List SourceStatement} {a : Assembly}

theorem layoutTrace_of_assemble (h : assemble settings p = .ok a) :
    a.layoutTrace = Layout.addresses (throughEnd p) := by
  obtain ⟨es, state, es', counter, hrun, -, rfl⟩ := assemble_eq_ok h
  exact Layout.run_addresses hrun

theorem cellOf?_of_assemble (h : assemble settings p = .ok a) {k : Nat} {s : SourceStatement}
    (hk : (throughEnd p)[k]? = some s) (hs : s.Stores) :
    ∃ address word warnings, a.layoutTrace[k]? = some address ∧
      s.encode settings a.labels = .ok (word, warnings) ∧
      a.cellOf? k = some ⟨address, word, s⟩ := by
  have htrace := layoutTrace_of_assemble h
  obtain ⟨es, state, es', counter, -, hrun, rfl⟩ := assemble_eq_ok h
  obtain ⟨word, warnings, hword, hcell⟩ := Emission.run_cell hrun hk hs
  refine ⟨Layout.addressOf (Layout.counterAfter ((throughEnd p).take k)) s, word, warnings, ?_,
    hword, ?_⟩
  · rw [htrace, Layout.getElem?_addresses, hk]
    rfl
  · unfold cellOf?
    simp only [hk, if_pos hs]
    exact hcell

theorem value?_of_assemble (h : assemble settings p = .ok a) :
    a.labels.value? = Layout.labelAddress? (Layout.placed (throughEnd p)) := by
  obtain ⟨es, state, es', counter, hrun, -, rfl⟩ := assemble_eq_ok h
  exact Layout.run_value? hrun

theorem exists_address_of_assemble (h : assemble settings p = .ok a) {k : Nat}
    {s : SourceStatement} (hk : (throughEnd p)[k]? = some s) :
    ∃ address, a.layoutTrace[k]? = some address := by
  rw [layoutTrace_of_assemble h, Layout.getElem?_addresses, hk]
  exact ⟨_, rfl⟩

theorem reference_of_assemble (h : assemble settings p = .ok a) {k : Nat} {s : SourceStatement}
    {op : MemoryOp} (hk : (throughEnd p)[k]? = some s) (hop : s.op = .memory op) :
    ∃ cell, a.cellOf? k = some cell ∧ cell.statement = s ∧
      ∀ address : Nat, s.resolvedAddress a.labels.value? = address →
        cell.word.toNat % 4096 = address % 4096 := by
  have hs : s.Stores := by
    rw [SourceStatement.Stores, hop]
    exact ⟨nofun, nofun⟩
  obtain ⟨_, word, warnings, -, hword, hcell⟩ := cellOf?_of_assemble h hk hs
  refine ⟨_, hcell, rfl, ?_⟩
  intro address haddress
  have hstored : word = op.word s.indirect (BitVec.ofInt 12 address) := by
    rw [SourceStatement.word_of_encode hword, SourceStatement.storedWord, hop, haddress]
  rw [hstored]
  exact MemoryOp.toNat_word_mod op s.indirect address

theorem value?_of_label (h : assemble settings p = .ok a) (hr : settings.allowRebinding = false)
    {j : Nat} {t : SourceStatement} {label : String} {address : Nat}
    (hj : (throughEnd p)[j]? = some t) (ht : t.label = some label)
    (ha : a.layoutTrace[j]? = some address) : a.labels.value? label = some (address : Int) := by
  rw [layoutTrace_of_assemble h] at ha
  rw [value?_of_assemble h, Layout.labelAddress?]
  obtain ⟨es, state, es', counter, hrun, -, rfl⟩ := assemble_eq_ok h
  rw [(Layout.run_labelsDistinct hrun hr).lastLabelled_eq hj ht ha]
  rfl

/-- Without rebinding, the word of a memory reference holds the low bits of the address of the one
statement that carries its operand as a label, before or after it, and the label is bound to that
address; if that statement stores a word, it is stored there. Without such a statement the low bits
are 0. -/
theorem references_resolve (hr : settings.allowRebinding = false)
    (h : assemble settings p = .ok a) (i : Nat) (s : SourceStatement) (op : MemoryOp)
    (hi : (throughEnd p)[i]? = some s) (hop : s.op = .memory op) :
    ∃ cell, a.cellOf? i = some cell ∧ cell.statement = s ∧
      (∀ (j : Nat) (t : SourceStatement) (label : String), (throughEnd p)[j]? = some t →
        t.label = some label → s.operand = some label →
        ∃ address : Nat, a.layoutTrace[j]? = some address ∧
          cell.word.toNat % 4096 = address % 4096 ∧ a.labels.value? label = some (address : Int) ∧
          (t.Stores → ∃ cell', a.cellOf? j = some cell' ∧ cell'.statement = t ∧
            cell'.address = address)) ∧
      ((s.operand = none ∨ ∀ t ∈ throughEnd p, t.label ≠ s.operand) →
        cell.word.toNat % 4096 = 0) := by
  obtain ⟨cell, hcell, hstatement, hbits⟩ := reference_of_assemble h hi hop
  refine ⟨cell, hcell, hstatement, ?_, ?_⟩
  · intro j t label hj ht hoperand
    obtain ⟨address, haddress⟩ := exists_address_of_assemble h hj
    have hvalue := value?_of_label h hr hj ht haddress
    refine ⟨address, haddress, hbits address ?_, hvalue, ?_⟩
    · rw [SourceStatement.resolvedAddress, hoperand, Option.bind_some, hvalue]
      rfl
    · intro hts
      obtain ⟨address', word, warnings, haddress', -, hcell'⟩ := cellOf?_of_assemble h hj hts
      exact ⟨_, hcell', rfl, Option.some.inj (haddress'.symm.trans haddress)⟩
  · intro hfree
    -- an operand that the table does not have is encoded as 0
    have hzero : s.resolvedAddress a.labels.value? = (0 : Nat) := by
      unfold SourceStatement.resolvedAddress
      cases ho : s.operand with
      | none => rfl
      | some label =>
        have hunbound : ∀ t ∈ throughEnd p, t.label ≠ some label := by
          intro t ht
          exact ho ▸ hfree.resolve_left (by rw [ho]; nofun) t ht
        rw [Option.bind_some, value?_of_assemble h,
          Layout.labelAddress?_placed_eq_none_iff.2 hunbound]
        rfl
    rw [hbits 0 hzero]

/-- References to a label that follows, to the label of an origin, and to a label that stands only
beyond the end. -/
def referenceProgram : List SourceStatement :=
  [⟨⟨some "TOP", .org, some "0FFF", false⟩, {}⟩,
   ⟨⟨none, .memory .lda, some "WORD", true⟩, {}⟩,
   ⟨⟨some "WORD", .directive .hexadecimal, some "7", false⟩, {}⟩,
   ⟨⟨none, .memory .bun, some "TOP", false⟩, {}⟩,
   ⟨⟨none, .memory .sta, some "LOST", false⟩, {}⟩,
   ⟨⟨none, .fin, none, false⟩, {}⟩,
   ⟨⟨some "LOST", .directive .decimal, some "1", false⟩, {}⟩]

theorem references_resolve_across_program :
    ∃ a forward back lost, assemble {} referenceProgram = .ok a ∧
      a.cellOf? 1 = some forward ∧ forward.word.toNat % 4096 = 0 ∧
      a.cellOf? 3 = some back ∧ back.word.toNat % 4096 = 0xFFF ∧
      a.cellOf? 4 = some lost ∧ lost.word.toNat % 4096 = 0 := by
  obtain ⟨a, ha⟩ : ∃ a, assemble {} referenceProgram = .ok a := ⟨_, rfl⟩
  obtain ⟨forward, hforward, -, hword, -⟩ := references_resolve rfl ha 1 _ _ rfl rfl
  obtain ⟨back, hback, -, htop, -⟩ := references_resolve rfl ha 3 _ _ rfl rfl
  obtain ⟨lost, hlost, -, -, hfree⟩ := references_resolve rfl ha 4 _ _ rfl rfl
  refine ⟨a, forward, back, lost, ha, hforward, ?_, hback, ?_, hlost, hfree (Or.inr (by decide))⟩
  · -- the word is stored at 0x1000, of which the address field keeps the low bits
    obtain ⟨address, haddress, hbits, -⟩ := hword 2 _ "WORD" rfl rfl rfl
    cases ha; cases haddress; exact hbits
  · obtain ⟨address, haddress, hbits, -⟩ := htop 0 _ "TOP" rfl rfl rfl
    cases ha; cases haddress; exact hbits

end Assembled

end Assembly

end TwoPass
