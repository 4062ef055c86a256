import TwoPass.Proofs.Runs

/-!
# Addresses

The address of a statement depends only on the statements up to it: an origin sets the location
counter to its operand, an end leaves it, every other statement adds one. Both passes count in this
way, whatever else they do, and refuse nothing but what `Layout.place` refuses.
-/

namespace TwoPass

/-- An operand that is read as a hexadecimal word: at least one digit, only hexadecimal digits, and
no more than the largest word. -/
def IsHexLiteral (operand : Option String) : Prop :=
  ∃ text, operand = some text ∧ isHexNumeral text.toList ∧ Numeral.value 16 text.toList ≤ wordMax

namespace SourceStatement

/-- The number that the operand of an origin stands for, unchecked. -/
def originValue (s : SourceStatement) : Nat :=
  Numeral.value 16 (s.operand.getD "").toList

/-- Whether a statement stores a word. Origins and ends store none. -/
def Stores (s : SourceStatement) : Prop :=
  s.op ≠ .org ∧ s.op ≠ .fin

instance (s : SourceStatement) : Decidable s.Stores :=
  inferInstanceAs (Decidable (_ ∧ _))

theorem hexOperand_eq_ok_iff {s : SourceStatement} {value : Nat} :
    s.hexOperand = .ok value ↔ IsHexLiteral s.operand ∧ value = s.originValue := by
  unfold hexOperand IsHexLiteral originValue
  cases s.operand with
  | none => simp
  | some text =>
    by_cases hd : isHexNumeral text.toList
    · by_cases hv : Numeral.value 16 text.toList ≤ wordMax
      · simp only [if_pos hd, if_pos hv]
        constructor
        · intro h
          cases h
          exact ⟨⟨text, rfl, hd, hv⟩, rfl⟩
        · rintro ⟨-, rfl⟩
          rfl
      · simp only [if_pos hd, if_neg hv]
        simp [hd, hv]
    · simp [hd]

theorem hexOperand_of_isHexLiteral {s : SourceStatement} (h : IsHexLiteral s.operand) :
    s.hexOperand = .ok s.originValue :=
  hexOperand_eq_ok_iff.2 ⟨h, rfl⟩

theorem hexOperand_eq_error_iff {s : SourceStatement} :
    (∃ d, s.hexOperand = .error d) ↔ ¬ IsHexLiteral s.operand := by
  constructor
  · rintro ⟨d, hd⟩ h
    rw [hexOperand_of_isHexLiteral h] at hd
    cases hd
  · intro h
    cases hs : s.hexOperand with
    | error d => exact ⟨d, rfl⟩
    | ok value => exact absurd (hexOperand_eq_ok_iff.1 hs).1 h

end SourceStatement

namespace Layout

/-- The address of a statement where the location counter is `counter`. -/
def addressOf (counter : Nat) (s : SourceStatement) : Nat :=
  if s.op = .org then s.originValue else counter

def counterAfter (p : List SourceStatement) : Nat :=
  p.foldl (fun counter s => advance (addressOf counter s) s) 0

def addresses (p : List SourceStatement) : List Nat :=
  p.zipIdx.map fun x => addressOf (counterAfter (p.take x.2)) x.1

theorem counterAfter_concat (p : List SourceStatement) (s : SourceStatement) :
    counterAfter (p ++ [s]) = advance (addressOf (counterAfter p) s) s := by
  rw [counterAfter, List.foldl_append]
  rfl

theorem length_addresses (p : List SourceStatement) : (addresses p).length = p.length := by
  rw [addresses, List.length_map, List.length_zipIdx]

theorem getElem?_addresses (p : List SourceStatement) (k : Nat) :
    (addresses p)[k]? = p[k]?.map fun s => addressOf (counterAfter (p.take k)) s := by
  rw [addresses, List.getElem?_map, List.getElem?_zipIdx, Option.map_map, Nat.zero_add]
  rfl

theorem addresses_concat (p : List SourceStatement) (s : SourceStatement) :
    addresses (p ++ [s]) = addresses p ++ [addressOf (counterAfter p) s] := by
  unfold addresses
  rw [List.zipIdx_append, List.map_append]
  congr 1
  · apply List.map_congr_left
    rintro ⟨t, k⟩ hk
    have hlt : k < p.length := (List.mem_zipIdx' hk).1
    simp only [List.take_append_of_le_length (Nat.le_of_lt hlt)]
  · rw [List.zipIdx_singleton, List.map_singleton, Nat.zero_add, List.take_left]

theorem take_addresses (p : List SourceStatement) (k : Nat) :
    (addresses p).take k = addresses (p.take k) := by
  apply List.ext_getElem?
  intro j
  rw [getElem?_addresses, List.getElem?_take, List.getElem?_take]
  by_cases hj : j < k
  · rw [if_pos hj, if_pos hj, getElem?_addresses, List.take_take, Nat.min_eq_left (Nat.le_of_lt hj)]
  · rw [if_neg hj, if_neg hj]
    rfl

theorem place_of_hexOperand_error {counter : Nat} {s : SourceStatement} {d : Diagnostic}
    (horg : s.op = .org) (hd : s.hexOperand = .error d) : place counter s = .error d := by
  rw [place, if_pos horg, hd]
  rfl

theorem place_of_isHexLiteral (counter : Nat) {s : SourceStatement}
    (h : s.op = .org → IsHexLiteral s.operand) :
    place counter s =
      if addressOf counter s ≤ wordMax ∨ s.op = .fin ∧ s.label = none then
        .ok (addressOf counter s)
      else .error ⟨.counterOverflow (addressOf counter s), s.origin⟩ := by
  -- the operand of an origin can be read, so only the check of the counter is left
  have hread : place counter s =
      (checkCounter (addressOf counter s) s >>= fun _ => pure (addressOf counter s)) := by
    unfold place addressOf
    by_cases horg : s.op = .org
    · rw [if_pos horg, if_pos horg, SourceStatement.hexOperand_of_isHexLiteral (h horg)]
      rfl
    · rw [if_neg horg, if_neg horg]
      rfl
  rw [hread]
  unfold checkCounter
  split <;> rfl

theorem place_eq_ok_iff {counter address : Nat} {s : SourceStatement} :
    place counter s = .ok address ↔ (s.op = .org → IsHexLiteral s.operand) ∧
      (addressOf counter s ≤ wordMax ∨ s.op = .fin ∧ s.label = none) ∧
      address = addressOf counter s := by
  by_cases h : s.op = .org → IsHexLiteral s.operand
  · rw [place_of_isHexLiteral counter h]
    by_cases hc : addressOf counter s ≤ wordMax ∨ s.op = .fin ∧ s.label = none
    · rw [if_pos hc]
      constructor
      · intro ha
        cases ha
        exact ⟨h, hc, rfl⟩
      · rintro ⟨-, -, rfl⟩
        rfl
    · rw [if_neg hc]
      constructor
      · intro ha
        cases ha
      · intro ha
        exact absurd ha.2.1 hc
  · obtain ⟨horg, hlit⟩ := Classical.not_imp.1 h
    obtain ⟨d, hd⟩ := SourceStatement.hexOperand_eq_error_iff.2 hlit
    rw [place_of_hexOperand_error horg hd]
    constructor
    · intro ha
      cases ha
    · intro ha
      exact absurd ha.1 h

/-- What a step of the first pass does: it places the statement, binds its label there, and counts
on. -/
theorem step_eq_ok {settings : Settings} {state next : State} {s : SourceStatement} {e : Event}
    (h : step settings state s = .ok (e, next)) :
    place state.counter s = .ok e.address ∧
      bindLabel settings state.labels e.address s = .ok (next.labels, e.warnings) ∧
      next.counter = advance e.address s := by
  unfold step at h
  cases hp : place state.counter s with
  | error d => rw [hp] at h; cases h
  | ok address =>
    cases hb : bindLabel settings state.labels address s with
    | error d => rw [hp] at h; simp only [bind, Except.bind, hb] at h; cases h
    | ok r =>
      rw [hp] at h
      simp only [bind, Except.bind, hb, pure, Except.pure, Except.ok.injEq, Prod.mk.injEq] at h
      obtain ⟨rfl, rfl⟩ := h
      exact ⟨rfl, hb, rfl⟩

theorem step_eq_error {settings : Settings} {state : State} {s : SourceStatement} {d : Diagnostic}
    (h : step settings state s = .error d) :
    place state.counter s = .error d ∨ ∃ address, place state.counter s = .ok address ∧
      bindLabel settings state.labels address s = .error d := by
  unfold step at h
  cases hp : place state.counter s with
  | error d' =>
    rw [hp] at h
    cases h
    exact Or.inl rfl
  | ok address =>
    rw [hp] at h
    cases hb : bindLabel settings state.labels address s with
    | error d' =>
      simp only [bind, Except.bind, hb] at h
      cases h
      exact Or.inr ⟨address, rfl, hb⟩
    | ok r => simp only [bind, Except.bind, hb] at h; cases h

section Run

variable {settings : Settings} {p : List SourceStatement} {es : List Event} {state : State}

theorem run_counter (h : Pass.Run (step settings) {} p es state) :
    state.counter = counterAfter p := by
  induction h with
  | nil => rfl
  | snoc _ hs ih =>
    obtain ⟨hp, -, hn⟩ := step_eq_ok hs
    rw [hn, (place_eq_ok_iff.1 hp).2.2, ih, counterAfter_concat]

theorem address_of_step {next : State} {s : SourceStatement} {e : Event}
    (h : Pass.Run (step settings) {} p es state) (hs : step settings state s = .ok (e, next)) :
    e.address = addressOf (counterAfter p) s := by
  rw [(place_eq_ok_iff.1 (step_eq_ok hs).1).2.2, run_counter h]

theorem run_addresses (h : Pass.Run (step settings) {} p es state) :
    es.map (·.address) = addresses p := by
  induction h with
  | nil => rfl
  | snoc hrun hs ih =>
    rw [List.map_append, ih, List.map_singleton, address_of_step hrun hs, addresses_concat]

end Run

end Layout

namespace Emission

/-- What a step of the second pass does: it counts as the first pass does, and stores the word of a
statement that has one. -/
theorem step_eq_ok {settings : Settings} {labels : LabelTable} {counter next : Nat}
    {s : SourceStatement} {e : Event} (h : step settings labels counter s = .ok (e, next)) :
    e.address = Layout.addressOf counter s ∧ next = Layout.advance e.address s ∧
      (s.Stores → ∃ word, s.encode settings labels = .ok (word, e.warnings) ∧
        e.cell = some ⟨e.address, word, s⟩) ∧
      (¬ s.Stores → e.cell = none ∧ e.warnings = []) := by
  unfold step at h
  by_cases horg : s.op = .org
  · rw [if_pos horg] at h
    cases hv : s.hexOperand with
    | error d => rw [hv] at h; cases h
    | ok value =>
      rw [hv] at h
      cases h
      refine ⟨?_, ?_, fun hs => absurd horg hs.1, fun _ => ⟨rfl, rfl⟩⟩
      · rw [Layout.addressOf, if_pos horg, (SourceStatement.hexOperand_eq_ok_iff.1 hv).2]
      · rw [Layout.advance, if_pos (Or.inl horg)]
  · rw [if_neg horg] at h
    have haddress : Layout.addressOf counter s = counter := if_neg horg
    cases hc : checkCounter counter s with
    | error d => rw [hc] at h; cases h
    | ok u =>
      rw [hc] at h
      by_cases hfin : s.op = .fin
      · simp only [if_pos hfin] at h
        cases h
        refine ⟨haddress.symm, ?_, fun hs => absurd hfin hs.2, fun _ => ⟨rfl, rfl⟩⟩
        rw [Layout.advance, if_pos (Or.inr hfin)]
      · simp only [if_neg hfin] at h
        cases he : s.encode settings labels with
        | error f => rw [he] at h; cases h
        | ok r =>
          rw [he] at h
          cases h
          refine ⟨haddress.symm, ?_, fun _ => ⟨r.1, rfl, rfl⟩, fun hs => absurd ⟨horg, hfin⟩ hs⟩
          rw [Layout.advance, if_neg (by simp only [horg, hfin, or_self, not_false_iff])]

/-- Where a statement can be placed, only its encoding can fail. -/
theorem step_eq_error_of_place {settings : Settings} {labels : LabelTable} {counter address : Nat}
    {s : SourceStatement} {f : Fault} (hp : Layout.place counter s = .ok address)
    (h : step settings labels counter s = .error f) :
    s.Stores ∧ s.encode settings labels = .error f := by
  -- what `place` accepts passes the checks here, although an origin is not checked a second time
  obtain ⟨hlit, hcounter, -⟩ := Layout.place_eq_ok_iff.1 hp
  unfold step at h
  by_cases horg : s.op = .org
  · rw [if_pos horg, SourceStatement.hexOperand_of_isHexLiteral (hlit horg)] at h
    cases h
  · rw [if_neg horg] at h
    have hc : checkCounter counter s = .ok () := by
      rw [Layout.addressOf, if_neg horg] at hcounter
      exact if_pos hcounter
    rw [hc] at h
    by_cases hfin : s.op = .fin
    · simp only [if_pos hfin] at h
      cases h
    · simp only [if_neg hfin] at h
      cases he : s.encode settings labels with
      | error g =>
        rw [he] at h
        cases h
        exact ⟨⟨horg, hfin⟩, rfl⟩
      | ok r => rw [he] at h; cases h

section Run

variable {settings : Settings} {labels : LabelTable} {p : List SourceStatement} {es : List Event}
  {counter : Nat}

theorem run_counter (h : Pass.Run (step settings labels) 0 p es counter) :
    counter = Layout.counterAfter p := by
  induction h with
  | nil => rfl
  | snoc _ hs ih =>
    obtain ⟨ha, hn, -⟩ := step_eq_ok hs
    rw [hn, ha, ih, Layout.counterAfter_concat]

theorem run_addresses (h : Pass.Run (step settings labels) 0 p es counter) :
    es.map (·.address) = Layout.addresses p := by
  induction h with
  | nil => rfl
  | snoc hrun hs ih =>
    obtain ⟨ha, -, -⟩ := step_eq_ok hs
    rw [List.map_append, ih, List.map_singleton, ha, run_counter hrun, Layout.addresses_concat]

end Run

end Emission

end TwoPass
