import TwoPass.Proofs.AddressSpace

/-!
# The texts of warnings

A warning is written with the place of its statement, if that is known, and with what is wrong. The
addresses of an assembly have four hexadecimal digits, so a text that names an address shows all of
it, and a text about a truncated one shows the three digits that are left.
-/

namespace TwoPass

/-- The lowest three hexadecimal digits of a number. -/
def Numeral.threeDigits (n : Nat) : String :=
  String.ofList [digit (n / 256 % 16), digit (n / 16 % 16), digit (n % 16)]

theorem Numeral.hex_mod_eq_threeDigits (n : Nat) : hex 3 (n % 16 ^ 3 : Nat) = threeDigits n := by
  apply String.toList_inj.1
  show (padded 16 3 (n % 16 ^ 3 : Nat)).toList = _
  rw [toList_padded, leftpad_digits_mod (by decide) (by decide), threeDigits, String.toList_ofList]
  show [digit (n / 256 % 16), digit (n / 16 % 16), digit (n / 1 % 16)] = _
  rw [Nat.div_one]

namespace SourceStatement

/-- A warning about a statement as it is written: after the file, the line and the column of the
statement, if they are known. -/
def warned (s : SourceStatement) (text : String) : String :=
  match s.origin.location with
  | some l =>
    l.file.getD "None" ++ ":" ++ (l.line.map Numeral.decimal).getD "None" ++ ":" ++
      Numeral.decimal l.column ++ ": warning: " ++ text
  | none => "warning: " ++ text

/-- What is wrong with an operand, so that the word is not the one that was asked for, where `find`
has the addresses of the labels: a reference has none, or one that is unknown or has no room in the
word, or an operation that takes none has one. -/
def shortfall? (find : String → Option Int) (s : SourceStatement) : Option String :=
  match s.op, s.operand with
  | .memory op, none => some (op.mnemonic ++ " has no operand, using address 0")
  | .memory _, some label =>
    match find label with
    | none => some ("undefined symbol '" ++ label ++ "', using address 0")
    | some address =>
      if 4095 < address then
        some ("address " ++ ("$" ++ Numeral.fourDigits address.toNat) ++ " of '" ++ label ++
          "' truncated to 12 bits ($" ++ Numeral.threeDigits address.toNat ++ ")")
      else none
  | .register op, some operand =>
    some (op.mnemonic ++ " takes no operand, ignoring '" ++ operand ++ "'")
  | .device op, some operand =>
    some (op.mnemonic ++ " takes no operand, ignoring '" ++ operand ++ "'")
  | _, _ => none

theorem message_warning (s : SourceStatement) (r : Remark) :
    (s.warning r).message = s.warned r.text := by
  unfold warning Warning.message warned
  cases s.origin.location with
  | none => rfl
  | some l => rfl

end SourceStatement

theorem Remark.text_truncated (label : String) {n : Nat} (hn : n ≤ wordMax) :
    (Remark.truncated label n).text =
      "address " ++ ("$" ++ Numeral.fourDigits n) ++ " of '" ++ label ++
        "' truncated to 12 bits ($" ++ Numeral.threeDigits n ++ ")" := by
  have hfield : (BitVec.ofInt 12 (n : Int)).toNat = n % 16 ^ 3 := by
    rw [BitVec.ofInt_natCast, BitVec.toNat_ofNat]
    rfl
  have hbits : Numeral.decimal addressBits = "12" := by decide
  have hjoined : "' truncated to 12 bits ($" = "' truncated to " ++ "12" ++ " bits ($" := rfl
  show "address " ++ Numeral.address n ++ " of '" ++ label ++ "' truncated to " ++
    Numeral.decimal addressBits ++ " bits ($" ++
    Numeral.hex 3 (BitVec.ofInt 12 (n : Int)).toNat ++ ")" = _
  rw [hfield, Numeral.hex_mod_eq_threeDigits, Numeral.address_eq_fourDigits hn, hbits, hjoined]
  simp only [String.append_assoc]

/-- The warning about a statement, as it is written, says what is wrong with it. -/
theorem SourceStatement.message_remark? {find : String → Option Int}
    (hfind : ∀ label address, find label = some address → ∃ n ≤ wordMax, address = (n : Nat))
    (s : SourceStatement) :
    (s.remark? find).map (·.message) = (s.shortfall? find).map s.warned := by
  unfold remark? shortfall?
  cases hop : s.op with
  | memory op =>
    cases s.operand with
    | none => exact congrArg some (s.message_warning _)
    | some label =>
      dsimp only
      cases hlabel : find label with
      | none => exact congrArg some (s.message_warning _)
      | some address =>
        obtain ⟨n, hn, rfl⟩ := hfind label address hlabel
        have hmax : (addressMax : Int) = 4095 := rfl
        dsimp only
        rw [hmax]
        split
        · have htext := congrArg s.warned (Remark.text_truncated label hn)
          exact congrArg some ((s.message_warning _).trans htext)
        · rfl
  | register op =>
    cases s.operand with
    | none => rfl
    | some operand => exact congrArg some (s.message_warning _)
  | device op =>
    cases s.operand with
    | none => rfl
    | some operand => exact congrArg some (s.message_warning _)
  | directive d => rfl

namespace Layout

/-- The warning about a redefinition as it is written: it names the label, the last address before
and the new one. -/
def Redefinition.text (r : Redefinition) : String :=
  r.statement.warned ("label '" ++ r.label ++ "' redefined: " ++
    ("$" ++ Numeral.fourDigits r.before) ++ " -> " ++ ("$" ++ Numeral.fourDigits r.after))

theorem Redefinition.message_warning {r : Redefinition} (hbefore : r.before ≤ wordMax)
    (hafter : r.after ≤ wordMax) : r.warning.message = r.text := by
  rw [warning, SourceStatement.message_warning, text, ← Numeral.address_eq_fourDigits hbefore,
    ← Numeral.address_eq_fourDigits hafter]
  rfl

section Run

variable {settings : Settings} {p : List SourceStatement} {es : List Event} {state : State}
  (h : Pass.Run (step settings) {} p es state)

include h

theorem run_redefinition_le {r : Redefinition} (hr : r ∈ redefinitions (placed p)) :
    r.before ≤ wordMax ∧ r.after ≤ wordMax := by
  obtain ⟨k, t, hk, hlabel, hlast⟩ := mem_redefinitions_iff.1 hr
  obtain ⟨hbefore, ht⟩ := lastLabelled_eq_some hlast
  exact ⟨run_labelled_le h (List.mem_of_mem_take hbefore) ht,
    run_labelled_le h (List.mem_of_getElem? hk) hlabel⟩

theorem run_labelAddress_le {label : String} {address : Int}
    (ha : labelAddress? (placed p) label = some address) : ∃ n ≤ wordMax, address = (n : Nat) := by
  obtain ⟨x, hx, rfl⟩ := Option.map_eq_some_iff.1 ha
  obtain ⟨hmem, hlabel⟩ := lastLabelled_eq_some hx
  exact ⟨x.2, run_labelled_le h hmem hlabel, rfl⟩

end Run

end Layout

namespace Assembly

variable {settings : Settings} {p : List SourceStatement} {a : Assembly}

theorem messages_of_assemble (h : assemble settings p = .ok a) :
    a.warnings.map (·.message) =
      (Layout.redefinitions (Layout.placed (throughEnd p))).map (·.text) ++
        (throughEnd p).filterMap fun s => (s.shortfall? a.labels.value?).map s.warned := by
  rw [warnings_of_assemble h, List.map_append, List.map_map, List.map_filterMap,
    value?_of_assemble h]
  obtain ⟨es, state, es', counter, hrun, -, rfl⟩ := assemble_eq_ok h
  refine congrArg₂ (· ++ ·) ?_ ?_
  · apply List.map_congr_left
    intro r hr
    obtain ⟨hbefore, hafter⟩ := Layout.run_redefinition_le hrun hr
    exact Layout.Redefinition.message_warning hbefore hafter
  · apply List.filterMap_congr
    intro s _
    exact SourceStatement.message_remark? (fun _ _ => Layout.run_labelAddress_le hrun) s

/-- The warnings of an assembly and their texts, and what it means to have none: the word of every
memory reference holds the whole address of a label that is defined once. -/
theorem warnings_exact (h : assemble settings p = .ok a) :
    a.warnings = (Layout.redefinitions ((throughEnd p).zip a.layoutTrace)).map (·.warning) ++
      (throughEnd p).filterMap
        (·.remark? (Layout.labelAddress? ((throughEnd p).zip a.layoutTrace))) ∧
    a.warnings.map (·.message) =
      (Layout.redefinitions ((throughEnd p).zip a.layoutTrace)).map (·.text) ++
        (throughEnd p).filterMap (fun s =>
          (s.shortfall? (Layout.labelAddress? ((throughEnd p).zip a.layoutTrace))).map s.warned) ∧
    (a.warnings = [] → ∀ (k : Nat) (s : SourceStatement) (op : MemoryOp),
      (throughEnd p)[k]? = some s → s.op = .memory op →
      ∃ label j t address cell, s.operand = some label ∧ (throughEnd p)[j]? = some t ∧
        t.label = some label ∧
        (∀ (i : Nat) (u : SourceStatement), (throughEnd p)[i]? = some u →
          u.label = some label → i = j) ∧
        a.layoutTrace[j]? = some address ∧ a.cellOf? k = some cell ∧ cell.statement = s ∧
        cell.word.toNat % 4096 = address) := by
  have hplaced : (throughEnd p).zip a.layoutTrace = Layout.placed (throughEnd p) := by
    rw [layoutTrace_of_assemble h, Layout.placed]
  have hwarnings := warnings_of_assemble h
  refine ⟨?_, ?_, ?_⟩
  · rw [hwarnings, hplaced, value?_of_assemble h]
  · rw [messages_of_assemble h, hplaced, value?_of_assemble h]
  · intro hnone k s op hk hop
    rw [hnone] at hwarnings
    obtain ⟨hrebound, hremarks⟩ := List.append_eq_nil_iff.1 hwarnings.symm
    have hremark := List.filterMap_eq_nil_iff.1 hremarks s (List.mem_of_getElem? hk)
    obtain ⟨label, value, hoperand, hvalue, hle⟩ :=
      SourceStatement.exists_label_of_remark?_eq_none hop hremark
    -- the label is that of the last statement which carries it, and so of the only one
    have hlast := hvalue
    rw [value?_of_assemble h, Layout.labelAddress?, Option.map_eq_some_iff] at hlast
    obtain ⟨⟨t, address⟩, hx, rfl⟩ := hlast
    obtain ⟨hmem, ht⟩ := Layout.lastLabelled_eq_some hx
    obtain ⟨j, hj, haddress⟩ := Layout.mem_placed_iff.1 hmem
    obtain ⟨cell, hcell, hstatement, hbits⟩ := reference_of_assemble h hk hop
    refine ⟨label, j, t, address, cell, hoperand, hj, ht, ?_, ?_, hcell, hstatement, ?_⟩
    · intro i u hi hu
      have hdistinct := Layout.labelsDistinct_of_redefinitions_eq_nil
        (List.map_eq_nil_iff.1 hrebound)
      exact hdistinct i j u t label hi hu hj ht
    · rw [layoutTrace_of_assemble h]
      exact haddress
    · have hresolved : s.resolvedAddress a.labels.value? = address := by
        rw [SourceStatement.resolvedAddress, hoperand, Option.bind_some, hvalue]
        rfl
      have hfits : address ≤ 4095 := by
        have hmax : addressMax = 4095 := rfl
        omega
      rw [hbits address hresolved, Nat.mod_eq_of_lt (by omega)]

/-- A label that moves twice, and an operand of each kind that is warned about. What follows the end
is not processed. -/
def warnedSource : String :=
  "A CLA B\n LDA\nA STA NONE\n ORG 1ABC\nA BUN A\n INP X\n END\nA DEC 1\n"

/-- References to labels before and after them, without a warning. -/
def unwarnedProgram : List SourceStatement :=
  [⟨⟨some "A", .memory .lda, some "B", false⟩, {}⟩,
   ⟨⟨some "B", .memory .bun, some "A", true⟩, {}⟩]

theorem warnings_exact_of_programs :
    (∃ p a, SourceStatement.ofSource warnedSource (some "p.asm") ";/" = .ok p ∧
      assemble { allowRebinding := true } p = .ok a ∧
      a.warnings.map (·.remark) = [.rebound "A" 0 2, .rebound "A" 2 0x1ABC,
        .operandIgnored (.register .cla) "B", .operandMissing (.memory .lda),
        .undefinedLabel "NONE", .truncated "A" 0x1ABC, .operandIgnored (.device .inp) "X"] ∧
      a.warnings.map (·.message) =
        ["p.asm:3:1: warning: label 'A' redefined: $0000 -> $0002",
         "p.asm:5:1: warning: label 'A' redefined: $0002 -> $1ABC",
         "p.asm:1:1: warning: CLA takes no operand, ignoring 'B'",
         "p.asm:2:2: warning: LDA has no operand, using address 0",
         "p.asm:3:1: warning: undefined symbol 'NONE', using address 0",
         "p.asm:5:1: warning: address $1ABC of 'A' truncated to 12 bits ($ABC)",
         "p.asm:6:2: warning: INP takes no operand, ignoring 'X'"]) ∧
    (∃ a, assemble {} [⟨⟨none, .memory .lda, none, false⟩, {}⟩] = .ok a ∧
      a.warnings.map (·.message) = ["warning: LDA has no operand, using address 0"]) ∧
    ∃ a, assemble {} unwarnedProgram = .ok a ∧ a.warnings = [] ∧
      ∃ cell, a.cellOf? 0 = some cell ∧ cell.word.toNat % 4096 ∈ a.layoutTrace := by
  refine ⟨?_, ?_, ?_⟩
  · obtain ⟨p, hp⟩ : ∃ p, SourceStatement.ofSource warnedSource (some "p.asm") ";/" = .ok p :=
      ⟨_, rfl⟩
    have hrun : (assemble { allowRebinding := true } p).toOption.map (·.layoutTrace) =
        some [0, 1, 2, 0x1ABC, 0x1ABC, 0x1ABD, 0x1ABE] := by
      cases hp
      decide +kernel
    obtain ⟨a, ha, htrace⟩ := Option.map_eq_some_iff.1 hrun
    have ha := eq_ok_of_toOption ha
    obtain ⟨hremarks, hmessages, -⟩ := warnings_exact ha
    refine ⟨p, a, hp, ha, ?_⟩
    rw [hmessages, hremarks, htrace]
    cases hp
    decide +kernel
  · obtain ⟨a, ha⟩ : ∃ a, assemble {} [⟨⟨none, .memory .lda, none, false⟩, {}⟩] = .ok a := ⟨_, rfl⟩
    refine ⟨a, ha, ?_⟩
    rw [(warnings_exact ha).2.1]
    cases ha
    decide +kernel
  · obtain ⟨a, ha⟩ : ∃ a, assemble {} unwarnedProgram = .ok a := ⟨_, rfl⟩
    have hnone : a.warnings = [] := by
      rw [(warnings_exact ha).1]
      cases ha; rfl
    obtain ⟨label, j, t, address, cell, -, -, -, -, haddress, hcell, -, hword⟩ :=
      (warnings_exact ha).2.2 hnone 0 _ _ rfl rfl
    exact ⟨a, ha, hnone, cell, hcell, hword ▸ List.mem_of_getElem? haddress⟩

end Assembly

end TwoPass
