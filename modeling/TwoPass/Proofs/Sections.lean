import TwoPass.Proofs.Bindings
import TwoPass.Proofs.Lockstep

/-!
# Sections

The origins cut a program into sections, the first of which starts at 0. Within a section addresses
count on from its origin, so that the address of a statement can be told from the last origin and
the distance to it. The labels of the table stand in the order in which the program first names
them, each at the address where it names it last.
-/

namespace TwoPass

-- an end is the last statement that a pass reaches
theorem op_ne_fin_of_throughEnd {p : List SourceStatement} {k : Nat} {s t : SourceStatement}
    (hk : (throughEnd p)[k]? = some s) (hnext : (throughEnd p)[k + 1]? = some t) :
    s.op ≠ .fin := by
  induction p generalizing k with
  | nil => cases hk
  | cons u rest ih =>
    rw [throughEnd] at hk hnext
    by_cases hfin : u.op = .fin
    · rw [if_pos hfin] at hnext
      cases hnext
    · rw [if_neg hfin] at hk hnext
      cases k with
      | zero =>
        have hu : u = s := Option.some.inj hk
        rw [← hu]
        exact hfin
      | succ k => exact ih hk hnext

namespace Layout

/-- No statement from index `i` through index `k` sets an origin. -/
def NoOrigin (p : List SourceStatement) (i k : Nat) : Prop :=
  ∀ (j : Nat) (t : SourceStatement), i ≤ j → j ≤ k → p[j]? = some t → t.op ≠ .org

/-- The address at index `k` by the origins up to it. After the last of them, at index `o`, there
are `k - (o + 1)` statements before the one at `k`, which may be that origin itself. -/
def CountsFromOrigin (p : List SourceStatement) (k address : Nat) : Prop :=
  NoOrigin p 0 k ∧ address = k ∨
  ∃ o s value, p[o]? = some s ∧ s.op = .org ∧ s.hexOperand = .ok value ∧ o ≤ k ∧
    NoOrigin p (o + 1) k ∧ address = value + (k - (o + 1))

section Addresses

variable {p : List SourceStatement} {k address : Nat} {s t : SourceStatement}

theorem noOrigin_succ {i : Nat} (h : NoOrigin p i k) (ht : p[k + 1]? = some t)
    (hop : t.op ≠ .org) : NoOrigin p i (k + 1) := by
  intro j u hij hjk hu
  by_cases hlast : j = k + 1
  · subst hlast
    have hut : u = t := Option.some.inj (hu.symm.trans ht)
    rw [hut]
    exact hop
  · exact h j u hij (by omega) hu

theorem countsFromOrigin_self (hk : p[k]? = some s) (horg : s.op = .org)
    (hread : s.hexOperand = .ok s.originValue) : CountsFromOrigin p k s.originValue := by
  have hnone : NoOrigin p (k + 1) k := by
    intro j t hlt hle
    omega
  refine Or.inr ⟨k, s, s.originValue, hk, horg, hread, Nat.le_refl k, hnone, ?_⟩
  rw [Nat.sub_eq_zero_of_le (Nat.le_succ k), Nat.add_zero]

theorem countsFromOrigin_zero (hs : p[0]? = some s)
    (hread : s.op = .org → s.hexOperand = .ok s.originValue) :
    CountsFromOrigin p 0 (addressOf 0 s) := by
  unfold addressOf
  by_cases horg : s.op = .org
  · rw [if_pos horg]
    exact countsFromOrigin_self hs horg (hread horg)
  · rw [if_neg horg]
    refine Or.inl ⟨?_, rfl⟩
    intro j u _ hj hu
    have hj0 : j = 0 := by omega
    rw [hj0, hs] at hu
    rw [← Option.some.inj hu]
    exact horg

/-- One statement on: the next address counts from the same origin, or from an origin of its own. -/
theorem countsFromOrigin_succ (h : CountsFromOrigin p k address) (hs : p[k]? = some s)
    (hfin : s.op ≠ .fin) (ht : p[k + 1]? = some t)
    (hread : t.op = .org → t.hexOperand = .ok t.originValue) :
    CountsFromOrigin p (k + 1) (addressOf (advance address s) t) := by
  unfold addressOf
  by_cases horg : t.op = .org
  · rw [if_pos horg]
    exact countsFromOrigin_self ht horg (hread horg)
  rw [if_neg horg]
  rcases h with ⟨hnone, haddress⟩ | ⟨o, u, value, hu, huop, hvalue, hle, hnone, haddress⟩
  · have hsop : s.op ≠ .org := hnone k s (Nat.zero_le k) (Nat.le_refl k) hs
    have hstep : advance address s = k + 1 := by
      rw [advance, if_neg (fun h => h.elim hsop hfin), haddress]
    exact Or.inl ⟨noOrigin_succ hnone ht horg, hstep⟩
  · -- the origin itself takes no address, so the statement after it stands where it does
    have hstep : advance address s = value + (k + 1 - (o + 1)) := by
      by_cases hlast : o = k
      · subst hlast
        have hsu : s = u := Option.some.inj (hs.symm.trans hu)
        rw [advance, if_pos (Or.inl (hsu ▸ huop)), haddress]
        omega
      · have hsop : s.op ≠ .org := hnone k s (by omega) (Nat.le_refl k) hs
        rw [advance, if_neg (fun h => h.elim hsop hfin), haddress]
        omega
    exact Or.inr ⟨o, u, value, hu, huop, hvalue, by omega, noOrigin_succ hnone ht horg, hstep⟩

theorem counterAfter_take_succ (hs : p[k]? = some s) :
    counterAfter (p.take (k + 1)) = advance (addressOf (counterAfter (p.take k)) s) s := by
  rw [List.take_add_one, hs]
  exact counterAfter_concat (p.take k) s

theorem countsFromOrigin_of_addresses
    (hfin : ∀ (i : Nat) (s t : SourceStatement), p[i]? = some s → p[i + 1]? = some t → s.op ≠ .fin)
    (hread : ∀ s ∈ p, s.op = .org → s.hexOperand = .ok s.originValue) (hs : p[k]? = some s) :
    CountsFromOrigin p k (addressOf (counterAfter (p.take k)) s) := by
  induction k generalizing s with
  | zero => exact countsFromOrigin_zero hs (hread s (List.mem_of_getElem? hs))
  | succ k ih =>
    have hlt : k < p.length := by
      have hbound := (List.getElem?_eq_some_iff.1 hs).1
      omega
    have hprev : p[k]? = some p[k] := List.getElem?_eq_getElem hlt
    rw [counterAfter_take_succ hprev]
    exact countsFromOrigin_succ (ih hprev) hprev (hfin k p[k] s hprev hs) hs
      (hread s (List.mem_of_getElem? hs))

end Addresses

section Labels

variable {p : List SourceStatement} {label : String}

theorem eraseDups_concat (labels : List String) (label : String) :
    (labels ++ [label]).eraseDups =
      if label ∈ labels.eraseDups then labels.eraseDups else labels.eraseDups ++ [label] := by
  rw [List.eraseDups_append, List.cons_removeAll, List.nil_removeAll]
  by_cases hmem : label ∈ labels
  · rw [if_pos (List.mem_eraseDups.2 hmem), List.contains_iff_mem.2 hmem]
    exact List.append_nil _
  · have hout : labels.contains label = false := by simpa using hmem
    rw [if_neg (fun h => hmem (List.mem_eraseDups.1 h)), hout]
    rfl

/-- The last statement with a label is at an index after which none has it. -/
theorem lastLabelled_placed_eq_some {x : SourceStatement × Nat}
    (h : lastLabelled label (placed p) = some x) :
    ∃ j, p[j]? = some x.1 ∧ (addresses p)[j]? = some x.2 ∧ x.1.label = some label ∧
      ∀ (i : Nat) (u : SourceStatement), j < i → p[i]? = some u → u.label ≠ some label := by
  unfold lastLabelled at h
  rw [List.findRev?_eq_find?_reverse, List.find?_eq_some_iff_append] at h
  obtain ⟨hx, later, earlier, hsplit, hlater⟩ := h
  have hplaced : placed p = earlier.reverse ++ x :: later.reverse := by
    rw [← List.reverse_reverse (placed p), hsplit]
    simp
  have hj : (placed p)[earlier.length]? = some x := by
    rw [hplaced, List.getElem?_append_right (by simp)]
    simp
  have hpair := List.getElem?_zip_eq_some.1 hj
  refine ⟨earlier.length, hpair.1, hpair.2, beq_iff_eq.1 hx, ?_⟩
  intro i u hi hu hul
  -- a statement after that index is one of the later ones, which do not have the label
  have hmem : (u, addressOf (counterAfter (p.take i)) u) ∈ later := by
    have hget := getElem?_placed hu
    rw [hplaced, List.getElem?_append_right (by simp; omega)] at hget
    have hoff : i - earlier.reverse.length = (i - earlier.length - 1) + 1 := by
      rw [List.length_reverse]
      omega
    rw [hoff, List.getElem?_cons_succ] at hget
    exact List.mem_reverse.1 (List.mem_of_getElem? hget)
  have hfree := hlater _ hmem
  simp [hul] at hfree

end Labels

section Run

variable {settings : Settings} {p : List SourceStatement} {es : List Event} {state : State}

theorem run_hexOperand (h : Pass.Run (step settings) {} p es state) {s : SourceStatement}
    (hs : s ∈ p) (horg : s.op = .org) : s.hexOperand = .ok s.originValue := by
  obtain ⟨k, hk⟩ := List.mem_iff_getElem?.1 hs
  obtain ⟨e, mid, next, -, -, hstep⟩ := h.at hk
  have hlit := (place_eq_ok_iff.1 (step_eq_ok hstep).1).1
  exact SourceStatement.hexOperand_of_isHexLiteral (hlit horg)

theorem table_of_bindLabel {labels next : LabelTable} {address : Nat} {s : SourceStatement}
    {warnings : List Warning} (hopen : labels.isClosed = false)
    (h : bindLabel settings labels address s = .ok (next, warnings)) :
    next = s.label.elim labels fun name => labels.put ⟨name, address, s.origin.location⟩ := by
  unfold bindLabel at h
  cases hl : s.label with
  | none =>
    rw [hl] at h
    cases h
    rfl
  | some name =>
    -- a new label and one that moves are put into the table alike
    simp only [hl, LabelTable.define, hopen, Bool.false_eq_true, if_false] at h
    cases hf : labels.find? name with
    | none =>
      simp only [hf] at h
      cases h
      rfl
    | some before =>
      simp only [hf] at h
      cases hr : settings.allowRebinding with
      | false => rw [hr] at h; cases h
      | true =>
        rw [hr] at h
        cases h
        rfl

theorem run_labels (h : Pass.Run (step settings) {} p es state) :
    state.labels.labels = (p.filterMap (·.label)).eraseDups := by
  induction h with
  | nil => rfl
  | @snoc p es state s e next hrun hs ih =>
    have hone : [s].filterMap (·.label) = s.label.toList := by
      cases hl : s.label <;> simp [hl]
    rw [table_of_bindLabel (run_isClosed hrun) (step_eq_ok hs).2.1, List.filterMap_append, hone]
    cases s.label with
    | none =>
      rw [Option.toList_none, List.append_nil]
      exact ih
    | some name =>
      rw [Option.toList_some, eraseDups_concat, ← ih]
      exact LabelTable.labels_put _ _

end Run

end Layout

namespace Assembly

variable {settings : Settings} {a b : Assembly}

theorem countsFromOrigin_of_layOut (h : a.layOut settings = .ok b) {k : Nat}
    (hk : k < (throughEnd a.statements).length) :
    ∃ address, b.layoutTrace[k]? = some address ∧
      Layout.CountsFromOrigin (throughEnd a.statements) k address := by
  have htrace := layoutTrace_of_layOut h
  obtain ⟨es, state, hrun, -⟩ := layOut_eq_ok h
  have hs : (throughEnd a.statements)[k]? = some (throughEnd a.statements)[k] :=
    List.getElem?_eq_getElem hk
  refine ⟨_, ?_, Layout.countsFromOrigin_of_addresses ?_ ?_ hs⟩
  · rw [htrace, Layout.getElem?_addresses, hs]
    rfl
  · intro i s t hi hnext
    exact op_ne_fin_of_throughEnd hi hnext
  · intro s hmem horg
    exact Layout.run_hexOperand hrun hmem horg

/-- A first pass that succeeds gives every statement through the end the address that counts from
the last origin, one more than the statement before it unless that one is an origin. It leaves a
closed table, which has the labels in the order of their first statements, each bound to the address
of its last. -/
theorem layOut_closed_form (h : a.layOut settings = .ok b) :
    b.layoutTrace.length = (throughEnd a.statements).length ∧
    (∀ k < (throughEnd a.statements).length, ∃ address, b.layoutTrace[k]? = some address ∧
      Layout.CountsFromOrigin (throughEnd a.statements) k address) ∧
    (∀ (k : Nat) (s t : SourceStatement), (throughEnd a.statements)[k]? = some s →
      (throughEnd a.statements)[k + 1]? = some t → t.op ≠ .org →
      ∃ address, b.layoutTrace[k]? = some address ∧
        b.layoutTrace[k + 1]? = some (if s.op = .org then address else address + 1)) ∧
    b.labels.isClosed = true ∧
    b.labels.labels = ((throughEnd a.statements).filterMap (·.label)).eraseDups ∧
    ∀ label ∈ b.labels.labels, ∃ (j : Nat) (t : SourceStatement) (address : Nat),
      (throughEnd a.statements)[j]? = some t ∧ t.label = some label ∧
      (∀ (i : Nat) (u : SourceStatement), j < i → (throughEnd a.statements)[i]? = some u →
        u.label ≠ some label) ∧
      b.layoutTrace[j]? = some address ∧ b.labels.value? label = some (address : Int) := by
  have htrace := layoutTrace_of_layOut h
  have hclosed := isClosed_of_layOut h
  obtain ⟨es, state, hrun, hb⟩ := layOut_eq_ok h
  have hlabels : b.labels.labels = ((throughEnd a.statements).filterMap (·.label)).eraseDups := by
    rw [hb]
    exact Layout.run_labels hrun
  refine ⟨?_, ?_, ?_, hclosed, hlabels, ?_⟩
  · rw [htrace, Layout.length_addresses]
  · intro k hk
    exact countsFromOrigin_of_layOut h hk
  · intro k s t hs ht horg
    have hfin := op_ne_fin_of_throughEnd hs ht
    refine ⟨Layout.addressOf (Layout.counterAfter ((throughEnd a.statements).take k)) s, ?_, ?_⟩
    · rw [htrace, Layout.getElem?_addresses, hs]
      rfl
    · rw [htrace, Layout.getElem?_addresses, ht, Option.map_some, Layout.addressOf, if_neg horg,
        Layout.counterAfter_take_succ hs, Layout.advance]
      simp only [hfin, or_false]
  · intro label hlabel
    have hvalue : b.labels.value? label =
        Layout.labelAddress? (Layout.placed (throughEnd a.statements)) label := by
      rw [hb]
      exact congrFun (Layout.run_value? hrun) label
    cases hlast : Layout.lastLabelled label (Layout.placed (throughEnd a.statements)) with
    | none =>
      -- a label of the table is that of some statement
      rw [hlabels, List.mem_eraseDups, List.mem_filterMap] at hlabel
      obtain ⟨t, ht, htl⟩ := hlabel
      exact absurd htl (Layout.lastLabelled_placed_eq_none_iff.1 hlast t ht)
    | some x =>
      obtain ⟨j, hj, haddress, hxl, hlater⟩ := Layout.lastLabelled_placed_eq_some hlast
      refine ⟨j, x.1, x.2, hj, hxl, hlater, ?_, ?_⟩
      · rw [htrace]
        exact haddress
      · rw [hvalue, Layout.labelAddress?, hlast]
        rfl

/-- Two sections, a label that moves, a label on an origin and one on the end, beyond which another
origin stands that cannot be read. -/
def sectionProgram : List SourceStatement :=
  [⟨⟨some "A", .register .cla, none, false⟩, {}⟩,
   ⟨⟨none, .memory .lda, some "B", false⟩, {}⟩,
   ⟨⟨some "B", .org, some "100", false⟩, {}⟩,
   ⟨⟨some "A", .directive .hexadecimal, some "7", false⟩, {}⟩,
   ⟨⟨none, .directive .decimal, some "1", false⟩, {}⟩,
   ⟨⟨some "C", .fin, none, false⟩, {}⟩,
   ⟨⟨some "D", .org, some "XYZ", false⟩, {}⟩]

theorem layOut_closed_form_of_two_sections :
    ∃ b, (ofStatements sectionProgram).layOut { allowRebinding := true } = .ok b ∧
      b.layoutTrace = [0, 1, 0x100, 0x100, 0x101, 0x102] ∧
      Layout.CountsFromOrigin (throughEnd sectionProgram) 5 0x102 ∧
      b.labels.labels = ["A", "B", "C"] ∧
      ∃ (j address : Nat), b.layoutTrace[j]? = some address ∧
        b.labels.value? "A" = some (address : Int) := by
  obtain ⟨b, hb⟩ : ∃ b, (ofStatements sectionProgram).layOut { allowRebinding := true } = .ok b :=
    ⟨_, rfl⟩
  have htrace : b.layoutTrace = [0, 1, 0x100, 0x100, 0x101, 0x102] := by cases hb; rfl
  obtain ⟨-, hcounts, -, -, hlabels, hbound⟩ := layOut_closed_form hb
  have hnames : b.labels.labels = ["A", "B", "C"] := by
    rw [hlabels]
    rfl
  obtain ⟨address, haddress, hlast⟩ := hcounts 5 (by decide)
  obtain ⟨j, t, value, -, -, -, hj, hvalue⟩ := hbound "A" (by rw [hnames]; decide)
  rw [htrace] at haddress
  cases haddress
  exact ⟨b, hb, htrace, hlast, hnames, j, value, hj, hvalue⟩

end Assembly

end TwoPass
