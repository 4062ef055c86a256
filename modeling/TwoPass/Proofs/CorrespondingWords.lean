import TwoPass.Proofs.Correspondence

/-!
# Words of corresponding programs

Corresponding programs whose operands correspond too are encoded alike. Only the address in a
reference to a label depends on where the program stands, so the words are the same but there, and
there they are the distance of the programs apart.
-/

namespace TwoPass

namespace Correspondence

section Emission

/-- Statements that are encoded alike: those that are laid out alike, with operands that correspond
where they are labels, and that are the same where they are literals. -/
structure Encoded (k : Correspondence) (s t : SourceStatement) : Prop extends Laid k s t where
  indirect : ∀ op, s.op = .memory op → t.indirect = s.indirect
  reference : ∀ op, s.op = .memory op → Option.Rel k.StandsFor s.operand t.operand
  literal : s.Stores → (∀ op, s.op ≠ .memory op) → t.operand = s.operand

variable {k : Correspondence} {s t : SourceStatement} {settings : Settings}
  {labels labels' : LabelTable}

theorem Encoded.inverse (h : k.Encoded s t) : k.inverse.Encoded t s := by
  refine ⟨h.toLaid.inverse, ?_, ?_, ?_⟩
  · intro op hop
    exact (h.indirect op (h.op.symm.trans hop)).symm
  · intro op hop
    exact rel_swap (h.reference op (h.op.symm.trans hop))
  · intro hs hop
    have hop' : ∀ op, s.op ≠ .memory op := fun op hmem => hop op (h.op.trans hmem)
    exact (h.literal (h.stores_iff.1 hs) hop').symm

theorem Encoded.bound (h : k.Encoded s t) (hl : k.Tables labels labels') {op : MemoryOp}
    (hop : s.op = .memory op) :
    t.operand.bind labels'.value? = (s.operand.bind labels.value?).map (· + k.distance) := by
  have hoperand := h.reference op hop
  generalize s.operand = x, t.operand = y at hoperand
  cases hoperand with
  | none => rfl
  | some hstands => exact hl.value? hstands

theorem Encoded.exists_encode (h : k.Encoded s t) (hl : k.Tables labels labels') (hs : s.Stores)
    {r : Word × List Warning} (hr : s.encode settings labels = .ok r) :
    ∃ r', t.encode settings labels' = .ok r' := by
  cases ht : t.encode settings labels' with
  | ok r' => exact ⟨r', rfl⟩
  | error f =>
    -- what is wrong with the one statement is wrong with the other
    have hbad : ∃ f, s.encode settings labels = .error f := by
      rw [SourceStatement.exists_encode_eq_error_iff hs]
      rcases (SourceStatement.exists_encode_eq_error_iff (h.stores_iff.2 hs)).1 ⟨f, ht⟩ with
        ⟨hop, hlit⟩ | ⟨hop, hlit⟩ | ⟨hstrict, ⟨op, hop⟩, hunbound⟩
      · rw [h.op] at hop
        rw [h.literal hs (by simp [hop])] at hlit
        exact Or.inl ⟨hop, hlit⟩
      · rw [h.op] at hop
        rw [h.literal hs (by simp [hop])] at hlit
        exact Or.inr (Or.inl ⟨hop, hlit⟩)
      · rw [h.op] at hop
        rw [h.bound hl hop, Option.map_eq_none_iff] at hunbound
        exact Or.inr (Or.inr ⟨hstrict, ⟨op, hop⟩, hunbound⟩)
    obtain ⟨f', hf'⟩ := hbad
    rw [hr] at hf'
    cases hf'

end Emission

end Correspondence

/-- Words with the same four bits before the address, and with addresses that are a distance apart,
as far as twelve bits tell. -/
def Word.Displaced (distance : Int) (w w' : Word) : Prop :=
  w'.toNat / 4096 = w.toNat / 4096 ∧
    ((w'.toNat % 4096 : Nat) : Int) = ((w.toNat % 4096 : Nat) + distance) % 4096

theorem Word.Displaced.inverse {distance : Int} {w w' : Word} (h : Displaced distance w w') :
    Displaced (-distance) w' w := by
  unfold Displaced at *
  omega

theorem Word.eq_of_displaced {w w' : Word} (h : Displaced 0 w w') : w' = w := by
  apply BitVec.eq_of_toNat_eq
  unfold Displaced at h
  omega

theorem MemoryOp.displaced_word (op : MemoryOp) (indirect : Bool) (address distance : Int) :
    Word.Displaced distance (op.word indirect (BitVec.ofInt 12 address))
      (op.word indirect (BitVec.ofInt 12 (address + distance))) := by
  unfold Word.Displaced
  rw [MemoryOp.toNat_word, MemoryOp.toNat_word, BitVec.toNat_ofInt, BitVec.toNat_ofInt]
  omega

/-- A memory reference to a label that a table has. -/
def SourceStatement.RefersInto (labels : LabelTable) (s : SourceStatement) : Prop :=
  (∃ op, s.op = .memory op) ∧ ∃ label, s.operand = some label ∧ label ∈ labels.labels

theorem SourceStatement.refersInto_iff {labels : LabelTable} {s : SourceStatement} {op : MemoryOp}
    (hop : s.op = .memory op) :
    s.RefersInto labels ↔ ∃ address, s.operand.bind labels.value? = some address := by
  unfold SourceStatement.RefersInto
  cases s.operand with
  | none => simp
  | some label =>
    rw [Option.bind_some, ← LabelTable.mem_labels_iff]
    simp [hop]

namespace Correspondence

section Cells

/-- Words of corresponding statements, at corresponding addresses. They are the same, but for the
address in a reference to a label. -/
structure Cells (k : Correspondence) (labels : LabelTable) (c c' : Cell) : Prop where
  statement : k.Encoded c.statement c'.statement
  address : k.Addresses c.address c'.address
  same : ¬ c.statement.RefersInto labels → c'.word = c.word
  displaced : c.statement.RefersInto labels → Word.Displaced k.distance c.word c'.word

/-- What the second pass does to corresponding statements. How many addresses are cut off depends on
where the programs stand. -/
structure Emissions (k : Correspondence) (labels : LabelTable) (e e' : Emission.Event) : Prop where
  address : k.Addresses e.address e'.address
  cell : Option.Rel (k.Cells labels) e.cell e'.cell
  warnings : k.distance = 0 → e'.warnings.length = e.warnings.length

variable {k : Correspondence} {s t : SourceStatement} {settings : Settings}
  {labels labels' : LabelTable}

theorem Encoded.refersInto_iff (h : k.Encoded s t) (hl : k.Tables labels labels') :
    t.RefersInto labels' ↔ s.RefersInto labels := by
  by_cases hmem : ∃ op, s.op = .memory op
  · obtain ⟨op, hop⟩ := hmem
    rw [SourceStatement.refersInto_iff hop, SourceStatement.refersInto_iff (h.op.trans hop),
      h.bound hl hop]
    cases s.operand.bind labels.value? <;> simp
  · constructor
    · rintro ⟨⟨op, hop⟩, -⟩
      exact absurd ⟨op, h.op.symm.trans hop⟩ hmem
    · rintro ⟨hop, -⟩
      exact absurd hop hmem

theorem Encoded.storedWord_eq (h : k.Encoded s t) (hl : k.Tables labels labels') (hs : s.Stores)
    (hr : ¬ s.RefersInto labels) : t.storedWord labels'.value? = s.storedWord labels.value? := by
  unfold SourceStatement.storedWord
  rw [h.op]
  cases hop : s.op with
  | memory op =>
    -- an operand without an address stands for address 0 in both programs
    rw [SourceStatement.refersInto_iff hop] at hr
    have hnone : s.operand.bind labels.value? = none := by
      rw [Option.eq_none_iff_forall_ne_some]
      exact fun address hbound => hr ⟨address, hbound⟩
    simp only [SourceStatement.resolvedAddress, h.bound hl hop, hnone, h.indirect op hop]
    rfl
  | register op => rfl
  | device op => rfl
  | directive d =>
    have hoperand := h.literal hs (by simp [hop])
    cases d <;> simp only [SourceStatement.originValue, hoperand]

theorem Encoded.storedWord_displaced (h : k.Encoded s t) (hl : k.Tables labels labels')
    (hr : s.RefersInto labels) :
    Word.Displaced k.distance (s.storedWord labels.value?) (t.storedWord labels'.value?) := by
  obtain ⟨op, hop⟩ := hr.1
  obtain ⟨address, haddress⟩ := (SourceStatement.refersInto_iff hop).1 hr
  unfold SourceStatement.storedWord
  rw [h.op, hop]
  simp only [SourceStatement.resolvedAddress, h.bound hl hop, haddress, h.indirect op hop]
  exact MemoryOp.displaced_word op s.indirect address k.distance

/-- At the same addresses the same things are remarked about corresponding statements. -/
theorem Encoded.length_remark? (h : k.Encoded s t) (hl : k.Tables labels labels')
    (hzero : k.distance = 0) (hs : s.Stores) :
    (t.remark? labels'.value?).toList.length = (s.remark? labels.value?).toList.length := by
  unfold SourceStatement.remark?
  rw [h.op]
  cases hop : s.op with
  | memory op =>
    have hoperand := h.reference op hop
    generalize s.operand = x, t.operand = y at hoperand
    cases hoperand with
    | none => rfl
    | @some l l' hstands =>
      dsimp only
      rw [hl.value? hstands, hzero]
      cases labels.value? l with
      | none => rfl
      | some address =>
        rw [Option.map_some, Int.add_zero]
        dsimp only
        split <;> rfl
  | register op =>
    rw [h.literal hs (by simp [hop])]
    cases s.operand <;> rfl
  | device op =>
    rw [h.literal hs (by simp [hop])]
    cases s.operand <;> rfl
  | directive d => rfl

theorem place_of_emission_step {counter next : Nat} {e : Emission.Event}
    (h : Emission.step settings labels counter s = .ok (e, next)) :
    Layout.place counter s = .ok e.address := by
  have haddress := (Emission.step_eq_ok h).1
  rw [Layout.place_eq_ok_iff]
  unfold Emission.step at h
  by_cases horg : s.op = .org
  · -- an origin is read here as it is in the first pass, and what can be read is in range
    rw [if_pos horg] at h
    cases hread : s.hexOperand with
    | error d =>
      rw [hread] at h
      cases h
    | ok value =>
      have hlit := (SourceStatement.hexOperand_eq_ok_iff.1 hread).1
      refine ⟨fun _ => hlit, Or.inl ?_, haddress⟩
      obtain ⟨text, htext, -, hle⟩ := hlit
      rw [Layout.addressOf, if_pos horg, SourceStatement.originValue, htext]
      exact hle
  · rw [if_neg horg] at h
    refine ⟨fun horg' => absurd horg' horg, ?_, haddress⟩
    unfold checkCounter at h
    rw [Layout.addressOf, if_neg horg]
    by_contra hover
    rw [if_neg hover] at h
    cases h

theorem Encoded.emissions (h : k.Encoded s t) (hl : k.Tables labels labels')
    {counter counter' next next' : Nat} {e e' : Emission.Event}
    (ha : k.Addresses e.address e'.address)
    (hs : Emission.step settings labels counter s = .ok (e, next))
    (ht : Emission.step settings labels' counter' t = .ok (e', next')) :
    k.Emissions labels e e' := by
  obtain ⟨-, -, hstored, hnone⟩ := Emission.step_eq_ok hs
  obtain ⟨-, -, hstored', hnone'⟩ := Emission.step_eq_ok ht
  by_cases hstores : s.Stores
  · obtain ⟨word, hword, hcell⟩ := hstored hstores
    obtain ⟨word', hword', hcell'⟩ := hstored' (h.stores_iff.2 hstores)
    refine ⟨ha, ?_, fun hzero => ?_⟩
    · rw [hcell, hcell']
      refine .some ⟨h, ha, fun hr => ?_, fun hr => ?_⟩
      · show word' = word
        rw [SourceStatement.word_of_encode hword, SourceStatement.word_of_encode hword']
        exact h.storedWord_eq hl hstores hr
      · show Word.Displaced k.distance word word'
        rw [SourceStatement.word_of_encode hword, SourceStatement.word_of_encode hword']
        exact h.storedWord_displaced hl hr
    · rw [SourceStatement.warnings_of_encode hword, SourceStatement.warnings_of_encode hword']
      exact h.length_remark? hl hzero hstores
  · have hstores' : ¬ t.Stores := mt h.stores_iff.1 hstores
    refine ⟨ha, ?_, fun _ => ?_⟩
    · rw [(hnone hstores).1, (hnone' hstores').1]
      exact .none
    · rw [(hnone hstores).2, (hnone' hstores').2]

theorem Encoded.emission_step (h : k.Encoded s t) (hd : k.distance ≤ 0)
    (hl : k.Tables labels labels') {counter counter' next : Nat} {e : Emission.Event}
    (hc : s.op ≠ .org → k.Addresses counter counter')
    (hs : Emission.step settings labels counter s = .ok (e, next)) :
    ∃ e' next', Emission.step settings labels' counter' t = .ok (e', next') ∧
      k.Emissions labels e e' ∧ k.Addresses next next' := by
  obtain ⟨address', hplace', haddress⟩ := h.place hd hc (place_of_emission_step hs)
  obtain ⟨-, hnext, hstored, -⟩ := Emission.step_eq_ok hs
  cases ht : Emission.step settings labels' counter' t with
  | error f =>
    -- where a statement can be placed, only its encoding can fail, and here it cannot
    obtain ⟨hstores', hencode⟩ := Emission.step_eq_error_of_place hplace' ht
    have hstores := h.stores_iff.1 hstores'
    obtain ⟨word, hword, -⟩ := hstored hstores
    obtain ⟨r', hr'⟩ := h.exists_encode hl hstores hword
    rw [hencode] at hr'
    cases hr'
  | ok r =>
    obtain ⟨e', next'⟩ := r
    have hsame : e'.address = address' := by
      rw [place_of_emission_step ht] at hplace'
      exact Except.ok.inj hplace'
    rw [← hsame] at haddress
    refine ⟨e', next', rfl, h.emissions hl haddress hs ht, ?_⟩
    rw [hnext, (Emission.step_eq_ok ht).2.1]
    exact h.advance haddress

/-- The second pass over a program that is not moved up goes the way of the pass over the other. -/
theorem emission_follows (hd : k.distance ≤ 0) {p q : List SourceStatement}
    (hstart : k.StartsApart p) (h : List.Forall₂ k.Encoded p q) (hl : k.Tables labels labels')
    (hstop : (Emission.run settings labels p).stop = none) :
    Pass.Follows k.Addresses (k.Emissions labels) (Emission.run settings labels p)
      (Emission.run settings labels' q) := by
  refine Pass.follows_of_step (Q := fun s x y => s.op ≠ .org → k.Addresses x y)
    (fun _ _ hst => hst.op) ?_ ?_ h ?_ hstop
  · intro s x y hxy _
    exact hxy
  · intro s t x y e next hst hc hs
    exact hst.emission_step hd hl hc hs
  · rcases hstart with hzero | ⟨s, hs, horg⟩
    · left
      show ((0 : Nat) : Int) = (0 : Nat) + k.distance
      omega
    · exact Or.inr ⟨s, hs, fun hne => absurd horg hne⟩

end Cells

section Assemblies

/-- Assemblies of corresponding programs. -/
structure Assemblies (k : Correspondence) (a a' : Assembly) : Prop where
  labels : k.Tables a.labels a'.labels
  layoutTrace : List.Forall₂ k.Addresses a.layoutTrace a'.layoutTrace
  emissionTrace : List.Forall₂ k.Addresses a.emissionTrace a'.emissionTrace
  cells : List.Forall₂ (k.Cells a.labels) a.cells a'.cells
  warnings : k.distance = 0 → a'.warnings.length = a.warnings.length

variable {k : Correspondence} {settings : Settings} {a a' : Assembly}

theorem Assemblies.inverse (h : k.Assemblies a a') : k.inverse.Assemblies a' a := by
  have hswap : ∀ x y, k.Addresses x y → k.inverse.Addresses y x := by
    intro x y hxy
    show (x : Int) = y + -k.distance
    unfold Addresses at hxy
    omega
  refine ⟨h.labels.inverse, List.Forall₂.flip (h.layoutTrace.imp hswap),
    List.Forall₂.flip (h.emissionTrace.imp hswap), List.Forall₂.flip (h.cells.imp ?_), ?_⟩
  · intro c c' hc
    -- references go into the table of their own program, which has a label if the other one has
    have hrefers := hc.statement.refersInto_iff h.labels
    refine ⟨hc.statement.inverse, hswap _ _ hc.address, fun hr => ?_, fun hr => ?_⟩
    · exact (hc.same (mt hrefers.2 hr)).symm
    · exact (hc.displaced (hrefers.1 hr)).inverse
  · intro hzero
    apply Eq.symm
    apply h.warnings
    have hneg : -k.distance = 0 := hzero
    omega

theorem Cells.word_eq {labels : LabelTable} {c c' : Cell} (h : k.Cells labels c c')
    (hd : k.distance = 0) : c'.word = c.word := by
  by_cases hr : c.statement.RefersInto labels
  · have hword := h.displaced hr
    rw [hd] at hword
    exact Word.eq_of_displaced hword
  · exact h.same hr

/-- At the same place, corresponding programs store the same words. -/
theorem Assemblies.cells_eq (h : k.Assemblies a a') (hd : k.distance = 0) :
    a'.cells.map (fun c => (c.address, c.word)) = a.cells.map (fun c => (c.address, c.word)) := by
  have hcells : List.Forall₂ (· = ·) (a.cells.map fun c => (c.address, c.word))
      (a'.cells.map fun c => (c.address, c.word)) := by
    rw [List.forall₂_map_left_iff, List.forall₂_map_right_iff]
    refine h.cells.imp ?_
    intro c c' hc
    have haddress : (c'.address : Int) = c.address + k.distance := hc.address
    have hsame : c.address = c'.address := by omega
    rw [hc.word_eq hd, hsame]
  rw [List.forall₂_eq_eq_eq] at hcells
  exact hcells.symm

/-- A program that corresponds to one that can be assembled, and is not moved up, can be assembled
too, and the assemblies correspond. -/
theorem assemble_corresponds (hd : k.distance ≤ 0) {p q : List SourceStatement}
    (hstart : k.StartsApart p) (h : List.Forall₂ k.Encoded p q)
    (ha : Assembly.assemble settings p = .ok a) :
    ∃ a', Assembly.assemble settings q = .ok a' ∧ k.Assemblies a a' := by
  unfold Assembly.assemble at ha ⊢
  cases hb : (Assembly.ofStatements p).layOut settings with
  | error d =>
    rw [hb] at ha
    cases ha
  | ok b =>
    rw [hb] at ha
    have hlaid : List.Forall₂ k.Laid p q := h.imp fun _ _ hst => hst.toLaid
    obtain ⟨b', hb', hlabels, htrace, hwarnings⟩ :=
      layOut_corresponds (.ofStatements p) (.ofStatements q) hd hstart hlaid hb
    have hstatements : b.statements = p := Assembly.statements_of_layOut hb
    have hstatements' : b'.statements = q := Assembly.statements_of_layOut hb'
    obtain ⟨hclosed, hstop, rfl⟩ := Assembly.emit_eq_ok_iff.1 ha
    rw [hstatements] at hstop ⊢
    have hpass := emission_follows hd hstart h hlabels hstop
    rw [hb', ← hstatements'] at *
    refine ⟨_, Assembly.emit_eq_ok_iff.2 ⟨hlabels.isClosed.trans hclosed, hpass.stop, rfl⟩,
      hlabels, htrace, ?_, ?_, ?_⟩
    · rw [List.forall₂_map_left_iff, List.forall₂_map_right_iff]
      exact hpass.events.imp fun _ _ he => he.address
    · exact List.rel_filterMap (fun _ _ he => he.cell) hpass.events
    · intro hzero
      rw [List.length_append, List.length_append, hwarnings rfl,
        length_flatMap_of_forall₂ (hpass.events.imp fun _ _ he => he.warnings hzero)]

theorem exists_assemble_iff (hd : k.distance = 0) {p q : List SourceStatement}
    (h : List.Forall₂ k.Encoded p q) :
    (∃ a', Assembly.assemble settings q = .ok a') ↔ ∃ a, Assembly.assemble settings p = .ok a := by
  have hd' : k.inverse.distance = 0 := by
    show -k.distance = 0
    omega
  constructor
  · rintro ⟨a', ha'⟩
    have hinverse := List.Forall₂.flip (h.imp fun _ _ hst => hst.inverse)
    obtain ⟨a, ha, -⟩ := assemble_corresponds (Int.le_of_eq hd') (Or.inl hd') hinverse ha'
    exact ⟨a, ha⟩
  · rintro ⟨a, ha⟩
    obtain ⟨a', ha', -⟩ := assemble_corresponds (Int.le_of_eq hd) (Or.inl hd) h ha
    exact ⟨a', ha'⟩

end Assemblies

end Correspondence

end TwoPass