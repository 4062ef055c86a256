import TwoPass.Proofs.Correspondence

/-!
# Edits of operands

Where statements stand, and what labels are bound to, depends on labels, operations and origins
alone, and a word depends on no statement but its own and on the labels. So an edit of an operand
that is no origin, or of the mark of an indirect address, changes no word but that of the statement
edited.
-/

namespace TwoPass

/-- Statements with the same label and the same operation and, for an origin, the same operand. They
may have come from different places. -/
structure SourceStatement.SameOutline (s t : SourceStatement) : Prop where
  label : t.label = s.label
  op : t.op = s.op
  origin : s.op = .org → t.operand = s.operand

namespace SourceStatement

variable {s t : SourceStatement}

/-- Programs of the same outline lay out alike, at the same place and with the same labels. -/
theorem SameOutline.laid (h : s.SameOutline t) : (Correspondence.relocation 0).Laid s t where
  op := h.op
  label := by
    rw [h.label]
    exact rel_eq_refl s.label
  readable := by
    intro horg
    rw [h.origin horg]
  origin := by
    intro horg
    show (t.originValue : Int) = s.originValue + 0
    rw [originValue, h.origin horg, Int.add_zero]
    rfl

theorem storedWord_congr (find : String → Option Int) (hop : t.op = s.op)
    (hoperand : t.operand = s.operand) (hindirect : t.indirect = s.indirect) :
    t.storedWord find = s.storedWord find := by
  unfold storedWord resolvedAddress originValue
  rw [hop, hoperand, hindirect]

end SourceStatement

theorem forall₂_throughEnd {p q : List SourceStatement}
    (h : List.Forall₂ SourceStatement.SameOutline p q) :
    List.Forall₂ SourceStatement.SameOutline (throughEnd p) (throughEnd q) := by
  induction h with
  | nil => exact .nil
  | @cons s t p q hst _ ih =>
    unfold throughEnd
    rw [hst.op]
    by_cases hfin : s.op = .fin
    · rw [if_pos hfin, if_pos hfin]
      exact .cons hst .nil
    · rw [if_neg hfin, if_neg hfin]
      exact .cons hst ih

namespace Assembly

variable {settings : Settings} {p q : List SourceStatement} {a b : Assembly}

/-- Words are stored at the addresses of the statements that store them. -/
theorem addresses_of_cells (h : assemble settings p = .ok a) :
    a.cells.map (·.address) =
      (((throughEnd p).map fun s => decide s.Stores).zip a.layoutTrace).filterMap fun x =>
        if x.1 then some x.2 else none := by
  rw [cells_of_assemble h, layoutTrace_of_assemble h, List.map_filterMap, List.zip_map_left,
    List.filterMap_map]
  -- a statement that stores could be encoded, or the program would not have been assembled
  apply List.filterMap_congr
  intro x hx
  have hmem : x.1 ∈ throughEnd p := (List.of_mem_zip hx).1
  by_cases hs : x.1.Stores
  · obtain ⟨r, hr⟩ := encode_of_assemble h hmem hs
    simp [Emission.cellAt_of_encode hs hr x.2, hs]
  · simp [Emission.cellAt_of_not_stores hs x.2, hs]

theorem stores_of_sameOutline (h : List.Forall₂ SourceStatement.SameOutline p q) :
    (throughEnd q).map (fun s => decide s.Stores) =
      (throughEnd p).map fun s => decide s.Stores := by
  have hstores : List.Forall₂ (· = ·) ((throughEnd p).map fun s => decide s.Stores)
      ((throughEnd q).map fun s => decide s.Stores) := by
    rw [List.forall₂_map_left_iff, List.forall₂_map_right_iff]
    refine (forall₂_throughEnd h).imp ?_
    intro s t hst
    exact decide_eq_decide.2 hst.laid.stores_iff.symm
  rw [List.forall₂_eq_eq_eq] at hstores
  exact hstores.symm

/-- The first pass finds the same in programs of the same outline. -/
theorem tables_of_sameOutline (h : List.Forall₂ SourceStatement.SameOutline p q)
    (ha : (ofStatements p).layOut settings = .ok a)
    (hb : (ofStatements q).layOut settings = .ok b) :
    (Correspondence.relocation 0).Tables a.labels b.labels ∧ b.layoutTrace = a.layoutTrace := by
  have hlaid : List.Forall₂ (Correspondence.relocation 0).Laid p q :=
    h.imp fun s t hst => hst.laid
  obtain ⟨b', hb', hlabels, htrace, -⟩ :=
    Correspondence.layOut_corresponds (ofStatements p) (ofStatements q) (Int.le_refl 0)
      (Or.inl rfl) hlaid ha
  rw [hb] at hb'
  cases hb'
  exact ⟨hlabels, Correspondence.eq_of_addresses rfl htrace⟩

theorem layOut_of_assemble (h : assemble settings p = .ok a) :
    ∃ b, (ofStatements p).layOut settings = .ok b ∧ b.labels = a.labels ∧
      b.layoutTrace = a.layoutTrace := by
  unfold assemble at h
  cases hb : (ofStatements p).layOut settings with
  | error d =>
    rw [hb] at h
    cases h
  | ok b =>
    rw [hb] at h
    obtain ⟨-, -, rfl⟩ := emit_eq_ok_iff.1 h
    exact ⟨b, rfl, rfl, rfl⟩

/-- What two programs of the same outline have in common, whatever operands are edited. The first
pass accepts both or neither, with the same table and the same trace. If both can be assembled, they
store their words at the same addresses, and statements with the same operand and the same mark
store the same word. -/
theorem operand_edits_local (h : List.Forall₂ SourceStatement.SameOutline p q)
    (settings : Settings) :
    ((∃ b, (ofStatements q).layOut settings = .ok b) ↔
      ∃ a, (ofStatements p).layOut settings = .ok a) ∧
    (∀ a b, (ofStatements p).layOut settings = .ok a → (ofStatements q).layOut settings = .ok b →
      b.labels.toList = a.labels.toList ∧ b.layoutTrace = a.layoutTrace) ∧
    ∀ a b, assemble settings p = .ok a → assemble settings q = .ok b →
      b.cells.map (·.address) = a.cells.map (·.address) ∧
      ∀ (k : Nat) (s t : SourceStatement), (throughEnd p)[k]? = some s →
        (throughEnd q)[k]? = some t → s.Stores →
        ∃ c c', a.cellOf? k = some c ∧ c.statement = s ∧ b.cellOf? k = some c' ∧
          c'.statement = t ∧ c'.address = c.address ∧
          (t.operand = s.operand → t.indirect = s.indirect → c'.word = c.word) := by
  refine ⟨?_, ?_, ?_⟩
  · exact Correspondence.exists_layOut_iff (ofStatements p) (ofStatements q) rfl
      (h.imp fun s t hst => hst.laid)
  · intro a b ha hb
    obtain ⟨htables, htrace⟩ := tables_of_sameOutline h ha hb
    refine ⟨?_, htrace⟩
    rw [htables.toList_eq (fun l l' hl => hl.symm)]
    exact (List.map_congr_left fun x _ => congrArg (Prod.mk x.1) (Int.add_zero x.2)).trans
      (List.map_id _)
  · intro a b ha hb
    obtain ⟨a', ha', hlabels, htrace⟩ := layOut_of_assemble ha
    obtain ⟨b', hb', hlabels', htrace'⟩ := layOut_of_assemble hb
    obtain ⟨htables, hsame⟩ := tables_of_sameOutline h ha' hb'
    rw [hlabels, hlabels'] at htables
    rw [htrace, htrace'] at hsame
    -- the labels are all that a word can learn about the other statements
    have hvalue : b.labels.value? = a.labels.value? := by
      funext l
      rw [htables.value? rfl]
      exact (Option.map_congr fun x _ => Int.add_zero x).trans Option.map_id'
    refine ⟨?_, ?_⟩
    · rw [addresses_of_cells ha, addresses_of_cells hb, hsame, stores_of_sameOutline h]
    · intro k s t hs ht hstores
      have hst : s.SameOutline t := by
        obtain ⟨hlt, rfl⟩ := List.getElem?_eq_some_iff.1 hs
        obtain ⟨hlt', rfl⟩ := List.getElem?_eq_some_iff.1 ht
        exact (forall₂_throughEnd h).get hlt hlt'
      obtain ⟨address, word, warnings, haddress, hword, hcell⟩ := cellOf?_of_assemble ha hs hstores
      obtain ⟨address', word', warnings', haddress', hword', hcell'⟩ :=
        cellOf?_of_assemble hb ht (hst.laid.stores_iff.2 hstores)
      refine ⟨_, _, hcell, rfl, hcell', rfl, ?_, ?_⟩
      · rw [hsame, haddress] at haddress'
        exact (Option.some.inj haddress').symm
      · intro hoperand hindirect
        show word' = word
        rw [SourceStatement.word_of_encode hword, SourceStatement.word_of_encode hword', hvalue]
        exact SourceStatement.storedWord_congr _ hst.op hoperand hindirect

/-- A program, and below it the program with edits of a reference and of a literal. -/
def draftProgram : List SourceStatement :=
  [⟨⟨none, .org, some "10", false⟩, {}⟩,
   ⟨⟨some "A", .memory .lda, some "B", false⟩, {}⟩,
   ⟨⟨some "B", .directive .decimal, some "5", false⟩, {}⟩,
   ⟨⟨none, .memory .bun, some "B", true⟩, {}⟩,
   ⟨⟨none, .fin, none, false⟩, {}⟩]

def editedProgram : List SourceStatement :=
  [⟨⟨none, .org, some "10", false⟩, {}⟩,
   ⟨⟨some "A", .memory .lda, some "A", true⟩, {}⟩,
   ⟨⟨some "B", .directive .decimal, some "-5", false⟩, {}⟩,
   ⟨⟨none, .memory .bun, some "B", true⟩, {}⟩,
   ⟨⟨none, .fin, some "A", false⟩, {}⟩]

theorem operand_edits_local_of_draftProgram :
    List.Forall₂ SourceStatement.SameOutline draftProgram editedProgram ∧
    ∃ a b c c', assemble {} draftProgram = .ok a ∧ assemble {} editedProgram = .ok b ∧
      b.labels.toList = a.labels.toList ∧
      b.cells.map (·.address) = [0x10, 0x11, 0x12] ∧
      (a.cellOf? 1).map (·.word) = some 0x2011#16 ∧ (b.cellOf? 1).map (·.word) = some 0xA010#16 ∧
      a.cellOf? 3 = some c ∧ b.cellOf? 3 = some c' ∧ c'.word = c.word := by
  have h : List.Forall₂ SourceStatement.SameOutline draftProgram editedProgram := by
    unfold draftProgram editedProgram
    refine .cons ?_ (.cons ?_ (.cons ?_ (.cons ?_ (.cons ?_ .nil))))
    all_goals exact ⟨rfl, rfl, by decide⟩
  obtain ⟨-, htables, hwords⟩ := operand_edits_local h {}
  obtain ⟨a, ha⟩ : ∃ a, assemble {} draftProgram = .ok a := ⟨_, rfl⟩
  obtain ⟨b, hb⟩ : ∃ b, assemble {} editedProgram = .ok b := ⟨_, rfl⟩
  obtain ⟨haddresses, hcells⟩ := hwords a b ha hb
  obtain ⟨c, c', hc, -, hc', -, -, hword⟩ := hcells 3 _ _ rfl rfl (by decide)
  refine ⟨h, a, b, c, c', ha, hb, ?_, ?_, ?_, ?_, hc, hc', hword rfl rfl⟩
  · obtain ⟨x, hx, hlabels, -⟩ := layOut_of_assemble ha
    obtain ⟨y, hy, hlabels', -⟩ := layOut_of_assemble hb
    rw [← hlabels, ← hlabels']
    exact (htables x y hx hy).1
  · rw [haddresses]
    cases ha
    rfl
  · cases ha
    rfl
  · cases hb
    rfl

end Assembly

end TwoPass
