import TwoPass.Proofs.Reassembly

/-!
# The address space

The location counter is at most one beyond the last address when a statement is reached. Whatever
takes an address is checked then, so that the counter is back in the address space after the check;
only an end without a label may stand beyond it, and nothing follows an end. So every address in
the object file, the listing and the symbol file has four digits.
-/

namespace TwoPass

namespace Numeral

/-- The lowest four hexadecimal digits of a number. -/
def fourDigits (n : Nat) : String :=
  String.ofList [digit (n / 4096 % 16), digit (n / 256 % 16), digit (n / 16 % 16), digit (n % 16)]

theorem hex_mod_eq_fourDigits (n : Nat) : hex 4 (n % 16 ^ 4 : Nat) = fourDigits n := by
  apply String.toList_inj.1
  show (padded 16 4 (n % 16 ^ 4 : Nat)).toList = _
  rw [toList_padded, leftpad_digits_mod (by decide) (by decide), fourDigits, String.toList_ofList]
  show [digit (n / 4096 % 16), digit (n / 256 % 16), digit (n / 16 % 16), digit (n / 1 % 16)] = _
  rw [Nat.div_one]

theorem hex_eq_fourDigits {n : Nat} (hn : n ≤ wordMax) : hex 4 n = fourDigits n := by
  have hlt : n < 16 ^ 4 := Nat.lt_succ_of_le hn
  rw [← hex_mod_eq_fourDigits, Nat.mod_eq_of_lt hlt]

theorem address_eq_fourDigits {n : Nat} (hn : n ≤ wordMax) : address n = "$" ++ fourDigits n := by
  rw [address, hex_eq_fourDigits hn]

theorem fourDigits_reads {n : Nat} (hn : n ≤ wordMax) :
    (fourDigits n).toList.length = 4 ∧ value 16 (fourDigits n).toList = n := by
  refine ⟨?_, ?_⟩
  · rw [fourDigits, String.toList_ofList]
    rfl
  · rw [← hex_eq_fourDigits hn]
    exact value_padded (by decide) (by decide)

end Numeral

namespace Layout

/-- An address that a statement may have: one in the address space, or the one just beyond it for an
end without a label. -/
def Fits (s : SourceStatement) (address : Nat) : Prop :=
  address ≤ wordMax ∨ address = wordMax + 1 ∧ s.op = .fin ∧ s.label = none

variable {settings : Settings} {p : List SourceStatement} {es : List Event} {state : State}

/-- The counter may be one beyond the last address before a step, but the check of the step keeps
all that takes an address inside, so that it is not further after it. -/
theorem fits_of_step {next : State} {s : SourceStatement} {e : Event}
    (hcounter : state.counter ≤ wordMax + 1) (h : step settings state s = .ok (e, next)) :
    Fits s e.address ∧ next.counter ≤ wordMax + 1 := by
  obtain ⟨hplace, -, hnext⟩ := step_eq_ok h
  obtain ⟨-, hcheck, haddress⟩ := place_eq_ok_iff.1 hplace
  rw [← haddress] at hcheck
  rw [hnext, advance]
  rcases hcheck with hle | ⟨hfin, hlabel⟩
  · refine ⟨Or.inl hle, ?_⟩
    split <;> omega
  · -- an end stands at the counter and does not move it
    have hhere : e.address = state.counter := by
      rw [haddress, addressOf, if_neg]
      rw [hfin]
      decide
    rw [if_pos (Or.inr hfin), hhere]
    refine ⟨?_, hcounter⟩
    by_cases hle : state.counter ≤ wordMax
    · exact Or.inl hle
    · exact Or.inr ⟨by omega, hfin, hlabel⟩

theorem run_counter_le (h : Pass.Run (step settings) {} p es state) :
    state.counter ≤ wordMax + 1 := by
  induction h with
  | nil => exact Nat.zero_le _
  | snoc _ hs ih => exact (fits_of_step ih hs).2

theorem run_fits (h : Pass.Run (step settings) {} p es state) {k address : Nat}
    {s : SourceStatement} (hk : p[k]? = some s) (ha : (addresses p)[k]? = some address) :
    Fits s address := by
  obtain ⟨e, mid, next, he, hmid, hstep⟩ := h.at hk
  rw [← run_addresses h, List.getElem?_map, he] at ha
  obtain rfl : e.address = address := Option.some.inj ha
  exact (fits_of_step (run_counter_le hmid) hstep).1

/-- What carries a label is not the end that may stand beyond the last address. -/
theorem run_labelled_le (h : Pass.Run (step settings) {} p es state) {x : SourceStatement × Nat}
    {label : String} (hx : x ∈ placed p) (hlabel : x.1.label = some label) : x.2 ≤ wordMax := by
  obtain ⟨k, hk, ha⟩ := mem_placed_iff.1 hx
  rcases run_fits h hk ha with hle | ⟨-, -, hnone⟩
  · exact hle
  · rw [hlabel] at hnone
    cases hnone

theorem run_binding_le (h : Pass.Run (step settings) {} p es state) {b : Binding}
    (hb : b ∈ state.labels.bindings) : ∃ address ≤ wordMax, b.value = (address : Nat) := by
  have hfound := LabelTable.find?_of_mem hb
  rw [run_find? h, binding?, Option.map_eq_some_iff] at hfound
  obtain ⟨x, hx, hbx⟩ := hfound
  obtain ⟨hmem, hlabel⟩ := lastLabelled_eq_some hx
  exact ⟨x.2, run_labelled_le h hmem hlabel, (congrArg Binding.value hbx).symm⟩

end Layout

/-- Nothing but an end without a label stands beyond the last address, and only at the end. -/
theorem Layout.address_of_throughEnd {settings : Settings} {p : List SourceStatement}
    {es : List Event} {state : State}
    (h : Pass.Run (step settings) {} (throughEnd p) es state) {k address : Nat}
    (ha : (addresses (throughEnd p))[k]? = some address) :
    address ≤ wordMax ∨ address = wordMax + 1 ∧ k + 1 = (throughEnd p).length ∧
      ∃ s, (throughEnd p).getLast? = some s ∧ s.op = .fin ∧ s.label = none := by
  have hlt := (List.getElem?_eq_some_iff.1 ha).1
  rw [length_addresses] at hlt
  have hk : (throughEnd p)[k]? = some (throughEnd p)[k] := List.getElem?_eq_getElem hlt
  rcases run_fits h hk ha with hle | ⟨hbeyond, hfin, hlabel⟩
  · exact Or.inl hle
  · have hlast : k + 1 = (throughEnd p).length := by
      cases hnext : (throughEnd p)[k + 1]? with
      | none =>
        have hle := List.getElem?_eq_none_iff.1 hnext
        omega
      | some t => exact absurd hfin (op_ne_fin_of_throughEnd hk hnext)
    refine Or.inr ⟨hbeyond, hlast, _, ?_, hfin, hlabel⟩
    rw [List.getLast?_eq_getElem?, ← hlast, Nat.add_sub_cancel, hk]

namespace Assembly

variable {settings : Settings} {p : List SourceStatement} {a : Assembly}

theorem binding_le_of_assemble (h : assemble settings p = .ok a) {b : Binding}
    (hb : b ∈ a.labels.bindings) : ∃ address ≤ wordMax, b.value = (address : Nat) := by
  obtain ⟨es, state, es', counter, hrun, -, rfl⟩ := assemble_eq_ok h
  exact Layout.run_binding_le hrun hb

theorem address_eq_of_mem_sorted (h : assemble settings p = .ok a) {b : Binding}
    (hb : b ∈ a.labels.sorted) :
    Numeral.address b.value = "$" ++ Numeral.fourDigits b.value.toNat := by
  obtain ⟨address, hle, hvalue⟩ := binding_le_of_assemble h (List.mem_mergeSort.1 hb)
  rw [hvalue, Int.toNat_natCast, Numeral.address_eq_fourDigits hle]

/-- Addresses stay in the address space. The words and the labels have addresses in it, and so has
every statement in either pass, except that an end without a label, which is then the last
statement, may stand just beyond it. The object file, the listing and the symbol file show every
address by exactly four digits. -/
theorem addresses_in_space (h : assemble settings p = .ok a) :
    (∀ c ∈ a.cells, c.address ≤ wordMax) ∧
    (∀ b ∈ a.labels.bindings, 0 ≤ b.value ∧ b.value ≤ wordMax) ∧
    (∀ passed ∈ [a.layoutTrace, a.emissionTrace], ∀ k address : Nat, passed[k]? = some address →
      address ≤ wordMax ∨ address = wordMax + 1 ∧ k + 1 = passed.length ∧
        ∃ s, (throughEnd p).getLast? = some s ∧ s.op = .fin ∧ s.label = none) ∧
    (∀ n ≤ wordMax, (Numeral.fourDigits n).toList.length = 4 ∧
      Numeral.value 16 (Numeral.fourDigits n).toList = n) ∧
    a.objectFile = String.join (a.cells.map fun c =>
      Numeral.fourDigits c.address ++ " " ++ c.word.binary ++ "\n") ∧
    a.listing = "\n".intercalate ([listingHeader] ++ (a.cells.map fun c =>
        Text.alignRight 6 (Numeral.decimal c.address) ++ "  " ++
          ("0x" ++ Numeral.fourDigits c.address) ++ "  " ++ c.word.binary ++ "  " ++ c.word.hex ++
          "  " ++ c.statement.text) ++ ["", "Symbol table:"] ++ (a.labels.sorted.map fun b =>
        Text.alignLeft 20 b.label ++ " = " ++ ("$" ++ Numeral.fourDigits b.value.toNat))) ++ "\n" ∧
    a.symbolFile = "\n".intercalate (["# Symbol table", "# Generated by manoasm"] ++
      a.labels.sorted.map fun b =>
        b.label ++ " " ++ ("$" ++ Numeral.fourDigits b.value.toNat)) ++ "\n" := by
  have hwords : ∀ c ∈ a.cells, c.address ≤ wordMax := fun c hc => address_le_of_mem_cells h hc
  refine ⟨hwords, ?_, ?_, fun n => Numeral.fourDigits_reads, ?_, ?_, ?_⟩
  · intro b hb
    obtain ⟨address, hle, hvalue⟩ := binding_le_of_assemble h hb
    omega
  · -- both passes count in the same way
    obtain ⟨es, state, es', counter, hrun, hrun', rfl⟩ := assemble_eq_ok h
    have htraces : ∀ passed ∈ [es.map (·.address), es'.map (·.address)],
        passed = Layout.addresses (throughEnd p) :=
      List.forall_mem_cons.2 ⟨Layout.run_addresses hrun,
        List.forall_mem_singleton.2 (Emission.run_addresses hrun')⟩
    intro passed hpassed k address ha
    rw [htraces passed hpassed] at ha ⊢
    rw [Layout.length_addresses]
    exact Layout.address_of_throughEnd hrun ha
  · unfold objectFile
    rw [List.map_congr_left]
    intro c hc
    rw [objectRow, Numeral.hex_eq_fourDigits (hwords c hc)]
  · have hrows : a.cells.map listingRow = a.cells.map fun c =>
        Text.alignRight 6 (Numeral.decimal c.address) ++ "  " ++
          ("0x" ++ Numeral.fourDigits c.address) ++ "  " ++ c.word.binary ++ "  " ++ c.word.hex ++
          "  " ++ c.statement.text := by
      apply List.map_congr_left
      intro c hc
      rw [listingRow, listedAddress, Numeral.hex_eq_fourDigits (hwords c hc)]
    have hlabels : a.labels.sorted.map listingLabel = a.labels.sorted.map fun b =>
        Text.alignLeft 20 b.label ++ " = " ++ ("$" ++ Numeral.fourDigits b.value.toNat) := by
      apply List.map_congr_left
      intro b hb
      rw [listingLabel, address_eq_of_mem_sorted h hb]
    rw [listing, hrows, hlabels]
  · have hlabels : a.labels.sorted.map symbolRow = a.labels.sorted.map fun b =>
        b.label ++ " " ++ ("$" ++ Numeral.fourDigits b.value.toNat) := by
      apply List.map_congr_left
      intro b hb
      rw [symbolRow, address_eq_of_mem_sorted h hb]
    rw [symbolFile, hlabels]

theorem addresses_in_space_of_lastAddressProgram :
    ∃ a, assemble {} lastAddressProgram = .ok a ∧
      a.emissionTrace = [0xFFFF, 0xFFFF, 0x10000] ∧
      (∀ k, a.emissionTrace[k]? = some 0x10000 → k = 2) ∧
      (∃ s, (throughEnd lastAddressProgram).getLast? = some s ∧ s.op = .fin ∧ s.label = none) ∧
      a.labels.toList = [("LAST", 0xFFFF)] ∧
      a.objectFile = "FFFF 0100111111111111\n" := by
  obtain ⟨a, ha⟩ : ∃ a, assemble {} lastAddressProgram = .ok a := ⟨_, rfl⟩
  have htrace : a.emissionTrace = [0xFFFF, 0xFFFF, 0x10000] := by
    cases ha
    rfl
  obtain ⟨-, -, haddress, -, hobject, -⟩ := addresses_in_space ha
  have hbeyond : ∀ k, a.emissionTrace[k]? = some 0x10000 → k + 1 = a.emissionTrace.length ∧
      ∃ s, (throughEnd lastAddressProgram).getLast? = some s ∧ s.op = .fin ∧ s.label = none := by
    intro k hk
    rcases haddress a.emissionTrace (by simp) k _ hk with hle | ⟨-, hend⟩
    · exact absurd hle (by decide)
    · exact hend
  refine ⟨a, ha, htrace, ?_, ?_, ?_, ?_⟩
  · intro k hk
    have hlast := (hbeyond k hk).1
    rw [htrace] at hlast
    exact Nat.succ.inj hlast
  · exact (hbeyond 2 (by rw [htrace]; rfl)).2
  · cases ha
    rfl
  · rw [hobject]
    cases ha
    rfl

end Assembly

end TwoPass
