import Mathlib.Data.List.Forall2
import TwoPass.Proofs.Blocks
import TwoPass.Proofs.Sections

/-!
# Corresponding programs

Two programs correspond if the labels of one stand for those of the other, one for one, and one is
placed at a fixed distance from the other. A pass goes over both at once: every step over the one is
matched by a step over the other, to states that correspond again. So the first pass accepts the one
if it accepts the other, unless it is moved beyond the last address.
-/

namespace TwoPass

namespace Pass

variable {σ α ε : Type} {step step' : σ → SourceStatement → Except ε (α × σ)}

/-- A second pass that goes the way of a first one: nothing stops it, and its events and its last
state match those of the first. -/
structure Follows (R : σ → σ → Prop) (E : α → α → Prop) (first second : Pass σ α ε) : Prop where
  stop : second.stop = none
  events : List.Forall₂ E first.events second.events
  state : R first.state second.state

/-- A pass is followed by one that can match each of its steps. `Q` says when two states are ready
for a statement, which states that match always are; the states at the start need not match if they
are ready for the first statement. -/
theorem follows_of_step {R : σ → σ → Prop} {E : α → α → Prop}
    {S : SourceStatement → SourceStatement → Prop} {Q : SourceStatement → σ → σ → Prop}
    (hop : ∀ s t, S s t → t.op = s.op) (hready : ∀ s x y, R x y → Q s x y)
    (hstep : ∀ s t x y e next, S s t → Q s x y → step x s = .ok (e, next) →
      ∃ e' next', step' y t = .ok (e', next') ∧ E e e' ∧ R next next')
    {p q : List SourceStatement} {x y : σ} (h : List.Forall₂ S p q)
    (hstart : R x y ∨ ∃ s ∈ p.head?, Q s x y) (hstop : (Pass.run step x p).stop = none) :
    Follows R E (Pass.run step x p) (Pass.run step' y q) := by
  -- the states match from the second statement on, so the first alternative carries the induction
  induction h generalizing x y with
  | nil => exact ⟨rfl, .nil, hstart.resolve_right (by simp)⟩
  | @cons s t p q hst _ ih =>
    have hq : Q s x y := by
      rcases hstart with hstart | ⟨u, hu, hstart⟩
      · exact hready s x y hstart
      · cases hu
        exact hstart
    cases hs : step x s with
    | error f =>
      rw [run_cons_error hs] at hstop
      cases hstop
    | ok r =>
      obtain ⟨e', next', ht, he, hnext⟩ := hstep s t x y r.1 r.2 hst hq hs
      by_cases hfin : s.op = .fin
      · rw [run_cons_fin hs hfin, run_cons_fin ht ((hop s t hst).trans hfin)]
        exact ⟨rfl, .cons he .nil, hnext⟩
      · have hfin' : t.op ≠ .fin := by
          rw [hop s t hst]
          exact hfin
        rw [run_cons_ok hs hfin] at hstop ⊢
        rw [run_cons_ok ht hfin']
        have hrest := ih (Or.inl hnext) hstop
        exact ⟨hrest.stop, .cons he hrest.events, hrest.state⟩

end Pass

/-- How the labels of one program stand for those of another, one for one, and how far the
addresses of the other are from those of the one. -/
structure Correspondence where
  StandsFor : String → String → Prop
  one_to_one : ∀ {l m l' m' : String}, StandsFor l l' → StandsFor m m' → (l' = m' ↔ l = m)
  distance : Int

/-- The correspondence seen from the other program. -/
def Correspondence.inverse (k : Correspondence) : Correspondence where
  StandsFor l l' := k.StandsFor l' l
  one_to_one hl hm := (k.one_to_one hl hm).symm
  distance := -k.distance

/-- The same labels, a distance apart. -/
def Correspondence.relocation (distance : Int) : Correspondence where
  StandsFor := Eq
  one_to_one := by
    intro l m l' m' hl hm
    rw [hl, hm]
  distance := distance

theorem rel_eq_refl {α : Type} (x : Option α) : Option.Rel Eq x x := by
  cases x with
  | none => exact .none
  | some a => exact .some rfl

theorem rel_swap {α : Type} {r : α → α → Prop} {x y : Option α} (h : Option.Rel r x y) :
    Option.Rel (fun b a => r a b) y x := by
  cases h with
  | none => exact .none
  | some h => exact .some h

namespace Correspondence

section Tables

/-- Addresses that correspond. -/
def Addresses (k : Correspondence) (x y : Nat) : Prop :=
  (y : Int) = x + k.distance

structure Bindings (k : Correspondence) (b b' : Binding) : Prop where
  label : k.StandsFor b.label b'.label
  value : b'.value = b.value + k.distance

/-- Tables that bind labels that correspond, in the same order, to addresses that correspond. -/
structure Tables (k : Correspondence) (t t' : LabelTable) : Prop where
  isClosed : t'.isClosed = t.isClosed
  bindings : List.Forall₂ k.Bindings t.bindings t'.bindings

variable {k : Correspondence} {t t' : LabelTable} {l l' : String}

theorem Tables.inverse (h : k.Tables t t') : k.inverse.Tables t' t := by
  refine ⟨h.isClosed.symm, List.Forall₂.flip (h.bindings.imp ?_)⟩
  intro b b' hb
  refine ⟨hb.label, ?_⟩
  show b.value = b'.value + -k.distance
  have hvalue := hb.value
  omega

theorem find?_of_forall₂ {bs bs' : List Binding} (h : List.Forall₂ k.Bindings bs bs')
    (hl : k.StandsFor l l') :
    Option.Rel k.Bindings (bs.find? (·.label == l)) (bs'.find? (·.label == l')) := by
  induction h with
  | nil => exact .none
  | @cons b b' bs bs' hb _ ih =>
    -- one for one: the two labels are found at the same place or not at all
    have hsame : (b'.label == l') = (b.label == l) := by
      rw [Bool.eq_iff_iff, beq_iff_eq, beq_iff_eq]
      exact k.one_to_one hb.label hl
    rw [List.find?_cons, List.find?_cons, hsame]
    cases b.label == l with
    | true => exact .some hb
    | false => exact ih

theorem Tables.find? (h : k.Tables t t') (hl : k.StandsFor l l') :
    Option.Rel k.Bindings (t.find? l) (t'.find? l') :=
  find?_of_forall₂ h.bindings hl

theorem Tables.value? (h : k.Tables t t') (hl : k.StandsFor l l') :
    t'.value? l' = (t.value? l).map (· + k.distance) := by
  have hfind := h.find? hl
  unfold LabelTable.value?
  generalize t.find? l = x, t'.find? l' = y at hfind
  cases hfind with
  | none => rfl
  | some hb => exact congrArg some hb.value

theorem Tables.mem_labels_iff (h : k.Tables t t') (hl : k.StandsFor l l') :
    l' ∈ t'.labels ↔ l ∈ t.labels := by
  rw [LabelTable.mem_labels_iff, LabelTable.mem_labels_iff, h.value? hl]
  cases t.value? l <;> simp

theorem bindings_put (t : LabelTable) (b : Binding) :
    (t.put b).bindings =
      if b.label ∈ t.labels then LabelTable.replace b t.bindings else t.bindings ++ [b] := by
  unfold LabelTable.put LabelTable.labels
  split <;> rfl

theorem Tables.put (h : k.Tables t t') {b b' : Binding} (hb : k.Bindings b b') :
    k.Tables (t.put b) (t'.put b') := by
  refine ⟨?_, ?_⟩
  · rw [LabelTable.isClosed_put, LabelTable.isClosed_put, h.isClosed]
  rw [bindings_put, bindings_put]
  -- a label is new to both tables or to neither, so a binding is added or replaced in both
  by_cases hmem : b.label ∈ t.labels
  · rw [if_pos hmem, if_pos ((h.mem_labels_iff hb.label).2 hmem)]
    unfold LabelTable.replace
    rw [List.forall₂_map_left_iff, List.forall₂_map_right_iff]
    refine h.bindings.imp ?_
    intro old old' hold
    by_cases hlabel : old.label = b.label
    · rw [if_pos hlabel, if_pos ((k.one_to_one hold.label hb.label).2 hlabel)]
      exact hb
    · rw [if_neg hlabel, if_neg (mt (k.one_to_one hold.label hb.label).1 hlabel)]
      exact hold
  · rw [if_neg hmem, if_neg (mt (h.mem_labels_iff hb.label).1 hmem)]
    exact List.rel_append h.bindings (.cons hb .nil)

/-- Where labels are renamed by a function, so is the whole table. -/
theorem Tables.toList_eq (h : k.Tables t t') {f : String → String}
    (hf : ∀ l l', k.StandsFor l l' → l' = f l) :
    t'.toList = t.toList.map fun x => (f x.1, x.2 + k.distance) := by
  have hrows : List.Forall₂ (· = ·)
      (t.bindings.map fun b => (f b.label, b.value + k.distance))
      (t'.bindings.map fun b => (b.label, b.value)) := by
    rw [List.forall₂_map_left_iff, List.forall₂_map_right_iff]
    refine h.bindings.imp ?_
    intro b b' hb
    rw [hf _ _ hb.label, hb.value]
  rw [List.forall₂_eq_eq_eq] at hrows
  unfold LabelTable.toList
  rw [List.map_map]
  exact hrows.symm

theorem eq_of_addresses (hd : k.distance = 0) {xs ys : List Nat}
    (h : List.Forall₂ k.Addresses xs ys) : ys = xs := by
  have heq : List.Forall₂ (· = ·) xs ys := by
    refine h.imp ?_
    intro x y hxy
    unfold Addresses at hxy
    omega
  rw [List.forall₂_eq_eq_eq] at heq
  exact heq.symm

end Tables

section Layout

/-- Statements that are laid out alike: the same operations, with labels that correspond and with
origins that can be read, if either can, as addresses that correspond. -/
structure Laid (k : Correspondence) (s t : SourceStatement) : Prop where
  op : t.op = s.op
  label : Option.Rel k.StandsFor s.label t.label
  readable : s.op = .org → (IsHexLiteral t.operand ↔ IsHexLiteral s.operand)
  origin : s.op = .org → k.Addresses s.originValue t.originValue

/-- States of the first pass that are ready for a statement. An origin does not ask for the
counter. -/
structure Ready (k : Correspondence) (s : SourceStatement) (x y : Layout.State) : Prop where
  counter : s.op ≠ .org → k.Addresses x.counter y.counter
  labels : k.Tables x.labels y.labels
  isOpen : x.labels.isClosed = false

structure States (k : Correspondence) (x y : Layout.State) : Prop where
  counter : k.Addresses x.counter y.counter
  labels : k.Tables x.labels y.labels
  isOpen : x.labels.isClosed = false

/-- What the first pass does to corresponding statements. -/
structure Placements (k : Correspondence) (e e' : Layout.Event) : Prop where
  address : k.Addresses e.address e'.address
  warnings : e'.warnings.length = e.warnings.length

/-- The distance of two programs shows from the start: there is none, or an origin comes first. -/
def StartsApart (k : Correspondence) (p : List SourceStatement) : Prop :=
  k.distance = 0 ∨ ∃ s ∈ p.head?, s.op = .org

variable {k : Correspondence} {s t : SourceStatement} {settings : Settings}

theorem Laid.inverse (h : k.Laid s t) : k.inverse.Laid t s := by
  have hop : t.op = .org → s.op = .org := fun horg => h.op.symm.trans horg
  refine ⟨h.op.symm, rel_swap h.label, fun horg => (h.readable (hop horg)).symm, fun horg => ?_⟩
  have horigin := h.origin (hop horg)
  show (s.originValue : Int) = t.originValue + -k.distance
  unfold Addresses at horigin
  omega

theorem Laid.stores_iff (h : k.Laid s t) : t.Stores ↔ s.Stores := by
  unfold SourceStatement.Stores
  rw [h.op]

theorem Laid.label_eq_none (h : k.Laid s t) (hs : s.label = none) : t.label = none := by
  have hlabel := h.label
  rw [hs] at hlabel
  generalize t.label = y at hlabel
  cases hlabel
  rfl

theorem Laid.addressOf (h : k.Laid s t) {counter counter' : Nat}
    (hc : s.op ≠ .org → k.Addresses counter counter') :
    k.Addresses (Layout.addressOf counter s) (Layout.addressOf counter' t) := by
  unfold Layout.addressOf
  rw [h.op]
  by_cases horg : s.op = .org
  · rw [if_pos horg, if_pos horg]
    exact h.origin horg
  · rw [if_neg horg, if_neg horg]
    exact hc horg

theorem Laid.advance (h : k.Laid s t) {address address' : Nat}
    (ha : k.Addresses address address') :
    k.Addresses (Layout.advance address s) (Layout.advance address' t) := by
  unfold Layout.advance Addresses at *
  rw [h.op]
  split <;> omega

/-- A statement has a place where one that it corresponds to has, if it is not moved up. -/
theorem Laid.place (h : k.Laid s t) (hd : k.distance ≤ 0) {counter counter' address : Nat}
    (hc : s.op ≠ .org → k.Addresses counter counter')
    (hp : Layout.place counter s = .ok address) :
    ∃ address', Layout.place counter' t = .ok address' ∧ k.Addresses address address' := by
  obtain ⟨hread, hrange, rfl⟩ := Layout.place_eq_ok_iff.1 hp
  have haddress := h.addressOf hc
  refine ⟨_, Layout.place_eq_ok_iff.2 ⟨?_, ?_, rfl⟩, haddress⟩
  · intro horg
    have horg' : s.op = .org := h.op.symm.trans horg
    exact (h.readable horg').2 (hread horg')
  · rcases hrange with hle | ⟨hfin, hlabel⟩
    · -- an address that is in range stays so on the way down
      left
      unfold Addresses at haddress
      omega
    · exact Or.inr ⟨h.op.trans hfin, h.label_eq_none hlabel⟩

theorem Laid.exists_bindLabel (h : k.Laid s t) {labels labels' : LabelTable} (address' : Nat)
    {address : Nat} {r : LabelTable × List Warning} (hl : k.Tables labels labels')
    (hopen : labels.isClosed = false)
    (hb : Layout.bindLabel settings labels address s = .ok r) :
    ∃ r', Layout.bindLabel settings labels' address' t = .ok r' := by
  cases hb' : Layout.bindLabel settings labels' address' t with
  | ok r' => exact ⟨r', rfl⟩
  | error d =>
    -- the label would be one that the other table has too
    obtain ⟨-, -, -, hfresh⟩ := Layout.bindLabel_eq_ok hopen hb
    obtain ⟨hr, l', before', hl', hfind', -⟩ :=
      Layout.bindLabel_eq_error (hl.isClosed.trans hopen) hb'
    have hlabel := h.label
    rw [hl'] at hlabel
    cases hs : s.label with
    | none =>
      rw [hs] at hlabel
      cases hlabel
    | some l =>
      rw [hs] at hlabel
      cases hlabel with
      | some hstands =>
        have hfind := hl.find? hstands
        rw [hfresh hr l hs, hfind'] at hfind
        cases hfind

theorem Laid.bindLabel (h : k.Laid s t) {labels labels' next next' : LabelTable}
    {address address' : Nat} {warnings warnings' : List Warning} (hl : k.Tables labels labels')
    (hopen : labels.isClosed = false) (ha : k.Addresses address address')
    (hb : Layout.bindLabel settings labels address s = .ok (next, warnings))
    (hb' : Layout.bindLabel settings labels' address' t = .ok (next', warnings')) :
    k.Tables next next' ∧ warnings'.length = warnings.length := by
  have hopen' : labels'.isClosed = false := hl.isClosed.trans hopen
  obtain ⟨-, -, hwarnings, -⟩ := Layout.bindLabel_eq_ok hopen hb
  obtain ⟨-, -, hwarnings', -⟩ := Layout.bindLabel_eq_ok hopen' hb'
  rw [Layout.table_of_bindLabel hopen hb, Layout.table_of_bindLabel hopen' hb', hwarnings,
    hwarnings']
  have hlabel := h.label
  generalize s.label = x, t.label = y at hlabel
  cases hlabel with
  | none => exact ⟨hl, rfl⟩
  | @some l l' hstands =>
    refine ⟨hl.put ⟨hstands, ha⟩, ?_⟩
    -- both labels are bound already, and then both passes warn, or neither is
    have hfind := hl.find? hstands
    rw [Option.bind_some, Option.bind_some]
    generalize labels.find? l = x, labels'.find? l' = y at hfind
    cases hfind <;> rfl

theorem Laid.step (h : k.Laid s t) (hd : k.distance ≤ 0) {x y next : Layout.State}
    {e : Layout.Event} (hr : k.Ready s x y) (hs : Layout.step settings x s = .ok (e, next)) :
    ∃ e' next', Layout.step settings y t = .ok (e', next') ∧ k.Placements e e' ∧
      k.States next next' := by
  obtain ⟨hplace, hbind, hnext⟩ := Layout.step_eq_ok hs
  obtain ⟨address', hplace', haddress⟩ := h.place hd hr.counter hplace
  obtain ⟨⟨labels', warnings'⟩, hbind'⟩ := h.exists_bindLabel address' hr.labels hr.isOpen hbind
  obtain ⟨hlabels, hwarnings⟩ := h.bindLabel hr.labels hr.isOpen haddress hbind hbind'
  have hstep : Layout.step settings y t =
      .ok (⟨address', t.label, warnings'⟩, ⟨Layout.advance address' t, labels'⟩) := by
    unfold Layout.step
    rw [hplace']
    show (Layout.bindLabel settings y.labels address' t >>= _) = _
    rw [hbind']
    rfl
  refine ⟨_, _, hstep, ⟨haddress, hwarnings⟩, ?_, hlabels, ?_⟩
  · rw [hnext]
    exact h.advance haddress
  · exact (Layout.bindLabel_eq_ok hr.isOpen hbind).1

/-- The first pass over a program that is not moved up goes the way of the pass over the other. -/
theorem layout_follows (hd : k.distance ≤ 0) {p q : List SourceStatement}
    (hstart : k.StartsApart p) (h : List.Forall₂ k.Laid p q)
    (hstop : (Layout.run settings p).stop = none) :
    Pass.Follows k.States k.Placements (Layout.run settings p) (Layout.run settings q) := by
  refine Pass.follows_of_step (Q := k.Ready) (fun _ _ hst => hst.op) ?_ ?_ h ?_ hstop
  · intro s x y hxy
    exact ⟨fun _ => hxy.counter, hxy.labels, hxy.isOpen⟩
  · intro s t x y e next hst hr hs
    exact hst.step hd hr hs
  · have hempty : k.Tables LabelTable.empty LabelTable.empty := ⟨rfl, .nil⟩
    -- both counters start at 0, so they match only if the distance is 0
    rcases hstart with hzero | ⟨s, hs, horg⟩
    · refine Or.inl ⟨?_, hempty, rfl⟩
      show ((0 : Nat) : Int) = (0 : Nat) + k.distance
      omega
    · exact Or.inr ⟨s, hs, fun hne => absurd horg hne, hempty, rfl⟩

theorem length_flatMap_of_forall₂ {α β : Type} {f : α → List β} {xs ys : List α}
    (h : List.Forall₂ (fun x y => (f y).length = (f x).length) xs ys) :
    (ys.flatMap f).length = (xs.flatMap f).length := by
  induction h with
  | nil => rfl
  | cons hxy _ ih =>
    rw [List.flatMap_cons, List.flatMap_cons, List.length_append, List.length_append, hxy, ih]

/-- The first pass over corresponding programs. -/
theorem layOut_corresponds (a a' : Assembly) {b : Assembly} (hd : k.distance ≤ 0)
    (hstart : k.StartsApart a.statements) (h : List.Forall₂ k.Laid a.statements a'.statements)
    (ha : a.layOut settings = .ok b) :
    ∃ b', a'.layOut settings = .ok b' ∧ k.Tables b.labels b'.labels ∧
      List.Forall₂ k.Addresses b.layoutTrace b'.layoutTrace ∧
      (a'.warnings.length = a.warnings.length → b'.warnings.length = b.warnings.length) := by
  obtain ⟨hstop, rfl⟩ := Assembly.layOut_eq_ok_iff.1 ha
  have hpass := layout_follows hd hstart h hstop
  refine ⟨_, Assembly.layOut_eq_ok_iff.2 ⟨hpass.stop, rfl⟩, ⟨rfl, hpass.state.labels.bindings⟩,
    ?_, ?_⟩
  · rw [List.forall₂_map_left_iff, List.forall₂_map_right_iff]
    exact hpass.events.imp fun _ _ he => he.address
  · intro hwarnings
    rw [List.length_append, List.length_append, hwarnings,
      length_flatMap_of_forall₂ (hpass.events.imp fun _ _ he => he.warnings)]

/-- At the same place, the first pass accepts both of two corresponding programs or neither. -/
theorem exists_layOut_iff (a a' : Assembly) (hd : k.distance = 0)
    (h : List.Forall₂ k.Laid a.statements a'.statements) :
    (∃ b', a'.layOut settings = .ok b') ↔ ∃ b, a.layOut settings = .ok b := by
  have hd' : k.inverse.distance = 0 := by
    show -k.distance = 0
    omega
  constructor
  · rintro ⟨b', hb'⟩
    have hinverse := List.Forall₂.flip (h.imp fun _ _ hst => hst.inverse)
    obtain ⟨b, hb, -⟩ := layOut_corresponds a' a (Int.le_of_eq hd') (Or.inl hd') hinverse hb'
    exact ⟨b, hb⟩
  · rintro ⟨b, hb⟩
    obtain ⟨b', hb', -⟩ := layOut_corresponds a a' (Int.le_of_eq hd) (Or.inl hd) h hb
    exact ⟨b', hb'⟩

end Layout

end Correspondence

end TwoPass
