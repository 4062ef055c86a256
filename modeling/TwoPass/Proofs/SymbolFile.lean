import Mathlib.Data.String.Basic
import TwoPass.Proofs.Renderings
import TwoPass.Proofs.TableHistories

/-!
# The symbol file

The symbol file has a row for every label, in the order of their code points. No label that was read
from a text has a blank in it, and no address needs more than four digits, so that a row can be cut
at its blank and the labels with their addresses are read back. The file is the same for tables that
agree, in whatever order they were filled, and differs for any others.
-/

namespace TwoPass

/-- The code points of a text, by which texts are put in order. -/
def codePoints (text : String) : List Nat :=
  text.toList.map Char.toNat

theorem codePoints_lt {a b : String} (h : a < b) : codePoints a < codePoints b := by
  have hlex : List.Lex (· < ·) a.toList b.toList := String.lt_iff_toList_lt.1 h
  unfold codePoints
  generalize a.toList = as at hlex
  generalize b.toList = bs at hlex
  induction hlex with
  | nil => exact .nil
  | cons _ ih => exact .cons ih
  | rel hlt => exact .rel hlt

namespace LabelTable

/-- The labels with their addresses, in the order of the labels. -/
def sortedPairs (t : LabelTable) : List (String × Int) :=
  t.sorted.map fun b => (b.label, b.value)

theorem pairwise_sorted (t : LabelTable) : t.sorted.Pairwise fun a b => a.label < b.label := by
  have hle : t.sorted.Pairwise fun a b => decide (a.label ≤ b.label) = true := by
    apply List.pairwise_mergeSort
    · intro a b c hab hbc
      exact decide_eq_true ((of_decide_eq_true hab).trans (of_decide_eq_true hbc))
    · intro a b
      simpa using le_total a.label b.label
  have hne : t.sorted.Pairwise fun a b => a.label ≠ b.label := by
    have hperm : (t.sorted.map (·.label)).Perm t.labels := (List.mergeSort_perm _ _).map _
    exact List.pairwise_map.1 (hperm.nodup_iff.2 t.distinct)
  refine (hle.and hne).imp ?_
  rintro a b ⟨hab, hnot⟩
  exact lt_of_le_of_ne (of_decide_eq_true hab) hnot

theorem pairwise_sortedPairs (t : LabelTable) : t.sortedPairs.Pairwise fun x y => x.1 < y.1 :=
  List.pairwise_map.2 t.pairwise_sorted

theorem nodup_sortedPairs (t : LabelTable) : t.sortedPairs.Nodup := by
  refine t.pairwise_sortedPairs.imp ?_
  rintro x y hlt rfl
  exact lt_irrefl x.1 hlt

theorem mem_sortedPairs_iff {t : LabelTable} {label : String} {value : Int} :
    (label, value) ∈ t.sortedPairs ↔ t.value? label = some value := by
  unfold sortedPairs value?
  rw [List.mem_map, Option.map_eq_some_iff]
  constructor
  · rintro ⟨b, hb, heq⟩
    cases heq
    exact ⟨b, find?_of_mem (List.mem_mergeSort.1 hb), rfl⟩
  · rintro ⟨b, hfound, rfl⟩
    obtain ⟨hb, rfl⟩ := mem_of_find? hfound
    exact ⟨b, List.mem_mergeSort.2 hb, rfl⟩

/-- Tables agree exactly if their labels and addresses are the same when they are put in order. -/
theorem sortedPairs_eq_iff {t u : LabelTable} :
    t.sortedPairs = u.sortedPairs ↔ t.agrees u = true := by
  rw [agrees_iff_value?_eq]
  constructor
  · intro h label
    apply Option.ext
    intro value
    rw [← mem_sortedPairs_iff, ← mem_sortedPairs_iff, h]
  · intro h
    have hperm : t.sortedPairs.Perm u.sortedPairs := by
      apply (List.perm_ext_iff_of_nodup t.nodup_sortedPairs u.nodup_sortedPairs).2
      rintro ⟨label, value⟩
      rw [mem_sortedPairs_iff, mem_sortedPairs_iff, h]
    exact List.Perm.eq_of_pairwise (fun x y _ _ hxy hyx => absurd hxy (lt_asymm hyx))
      t.pairwise_sortedPairs u.pairwise_sortedPairs hperm

end LabelTable

theorem Numeral.not_break_of_isUpperHexDigit {c : Char} (h : isUpperHexDigit c = true) :
    Text.isBreak c = false := by
  have hbounds := isHexDigit_iff.1 (isHexDigit_of_isUpperHexDigit h)
  unfold Text.isBreak
  simp only [Bool.or_eq_false_iff, Bool.and_eq_false_iff, decide_eq_false_iff_not,
    beq_eq_false_iff_ne]
  omega

namespace Assembly

/-- A row of the symbol file: a label, one blank, the mark of an address, and its four digits. -/
def IsSymbolRow (pair : String × Int) (row : String) : Prop :=
  ∃ (digits : List Char) (address : Nat), row.toList = pair.1.toList ++ ' ' :: '$' :: digits ∧
    ' ' ∉ pair.1.toList ∧ digits.length = 4 ∧
    (∀ d ∈ digits, Numeral.isUpperHexDigit d = true) ∧
    Numeral.Denotes 16 digits address ∧ pair.2 = address

/-- The label and the address on a row, which is cut at its only blank. -/
def symbolPair? (row : String) : Option (String × Int) :=
  match row.toList.splitOn ' ' with
  | [label, '$' :: digits] =>
    if digits.length = 4 then
      (Numeral.read? 16 digits).map fun (address : Nat) => (String.ofList label, Int.ofNat address)
    else none
  | _ => none

/-- The rows before those of the labels. -/
def symbolHeader : List String :=
  ["# Symbol table", "# Generated by manoasm"]

theorem symbolPair?_of_isSymbolRow {pair : String × Int} {row : String}
    (h : IsSymbolRow pair row) : symbolPair? row = some pair := by
  obtain ⟨digits, address, hrow, hlabel, hlength, hupper, hdenotes, haddress⟩ := h
  have hblank : ' ' ∉ '$' :: digits := by
    rw [List.mem_cons, not_or]
    refine ⟨by decide, fun hmem => ?_⟩
    exact absurd (hupper ' ' hmem) (by decide)
  have hsplit : row.toList.splitOn ' ' = [pair.1.toList, '$' :: digits] := by
    rw [hrow, List.splitOn_append_cons_self_of_not_mem hlabel, List.splitOn_eq_singleton hblank]
  have hread : Numeral.read? 16 digits = some address :=
    Numeral.read?_of_denotes (by decide) hupper hdenotes
  unfold symbolPair?
  simp only [hsplit, hlength, if_true, hread, Option.map_some, String.ofList_toList]
  exact congrArg (fun value => some (pair.1, value)) haddress.symm

theorem map_symbolPair? {pairs : List (String × Int)} {rows : List String}
    (h : List.Forall₂ IsSymbolRow pairs rows) : rows.map symbolPair? = pairs.map some := by
  induction h with
  | nil => rfl
  | cons hrow _ ih => rw [List.map_cons, List.map_cons, symbolPair?_of_isSymbolRow hrow, ih]

/-- The rows of the labels. -/
def symbolRows (a : Assembly) : List String :=
  a.labels.sorted.map symbolRow

theorem symbolFile_eq (a : Assembly) :
    a.symbolFile = String.join ((symbolHeader ++ a.symbolRows).map (· ++ "\n")) :=
  (join_lines (List.append_ne_nil_of_left_ne_nil (List.cons_ne_nil _ _) _)).symm

theorem symbolFile_congr {a b : Assembly} (h : a.labels.sortedPairs = b.labels.sortedPairs) :
    a.symbolFile = b.symbolFile := by
  have hrows : ∀ c : Assembly, c.symbolRows =
      c.labels.sortedPairs.map fun pair => pair.1 ++ " " ++ Numeral.address pair.2 := by
    intro c
    rw [LabelTable.sortedPairs, List.map_map]
    rfl
  rw [symbolFile_eq, symbolFile_eq, hrows, hrows, h]

section Assembled

variable {settings : Settings} {p : List SourceStatement} {a : Assembly}
  (hp : ReadFromText p) (h : assemble settings p = .ok a)

include hp h

theorem not_blank_of_mem_sorted {b : Binding} (hb : b ∈ a.labels.sorted) :
    ∀ c ∈ b.label.toList, Text.isBlank c = false := by
  obtain ⟨s, hs, hlabel⟩ := exists_label_of_mem_bindings h (List.mem_mergeSort.1 hb)
  exact hp.not_blank hs (Or.inl hlabel)

theorem isSymbolRow_symbolRow {b : Binding} (hb : b ∈ a.labels.sorted) :
    IsSymbolRow (b.label, b.value) (symbolRow b) := by
  obtain ⟨address, hle, hvalue⟩ := binding_le_of_assemble h (List.mem_mergeSort.1 hb)
  refine ⟨(Numeral.hex 4 address).toList, address, ?_, ?_, length_hex hle, ?_,
    Numeral.denotes_padded (by decide) (by decide) 4 address, hvalue⟩
  · rw [symbolRow, Numeral.address, hvalue, String.toList_append, String.toList_append,
      String.toList_append, List.append_assoc]
    rfl
  · intro hblank
    exact absurd (not_blank_of_mem_sorted hp h hb ' ' hblank) (by decide)
  · intro d hd
    exact Numeral.isUpperHexDigit_of_mem_hex hd

theorem forall₂_symbolRows : List.Forall₂ IsSymbolRow a.labels.sortedPairs a.symbolRows := by
  rw [LabelTable.sortedPairs, symbolRows, List.forall₂_map_left_iff, List.forall₂_map_right_iff,
    List.forall₂_same]
  intro b hb
  exact isSymbolRow_symbolRow hp h hb

theorem lines_symbolFile : Text.lines a.symbolFile = symbolHeader ++ a.symbolRows := by
  have hheader : ∀ row ∈ symbolHeader, ∀ c ∈ row.toList, Text.isBreak c = false := by
    have hall : symbolHeader.all (fun row => row.toList.all (!Text.isBreak ·)) = true := by decide
    simpa only [List.all_eq_true, Bool.not_eq_true'] using hall
  rw [symbolFile_eq]
  apply Text.lines_join
  rw [List.forall_mem_append, symbolRows, List.forall_mem_map]
  refine ⟨hheader, ?_⟩
  intro b hb c hc
  obtain ⟨digits, -, hrow, -, -, hupper, -, -⟩ := isSymbolRow_symbolRow hp h hb
  rw [hrow, List.mem_append, List.mem_cons, List.mem_cons] at hc
  rcases hc with hc | rfl | rfl | hc
  · exact Text.not_break_of_not_blank (not_blank_of_mem_sorted hp h hb c hc)
  · decide
  · decide
  · exact Numeral.not_break_of_isUpperHexDigit (hupper c hc)

end Assembled

/-- The symbol file is canonical. For a program that was read from a text it has two fixed rows and
then one for every label, in the order of the code points, from which the labels and their addresses
are read back. Two such programs have the same symbol file exactly if their labels agree, in
whatever order they were defined. -/
theorem symbolFile_canonical {settings : Settings} {p : List SourceStatement} {a : Assembly}
    (hp : ReadFromText p) (h : assemble settings p = .ok a) :
    (∃ (pairs : List (String × Int)) (rows : List String),
      a.symbolFile = String.join ((symbolHeader ++ rows).map (· ++ "\n")) ∧
      Text.lines a.symbolFile = symbolHeader ++ rows ∧
      rows.length = a.labels.size ∧
      (pairs.Pairwise fun x y => codePoints x.1 < codePoints y.1) ∧
      List.Forall₂ IsSymbolRow pairs rows ∧
      rows.map symbolPair? = pairs.map some ∧
      ∀ label value, (label, value) ∈ pairs ↔ a.labels.value? label = some value) ∧
    ∀ (settings' : Settings) (p' : List SourceStatement) (a' : Assembly),
      ReadFromText p' → assemble settings' p' = .ok a' →
      (a.labels.agrees a'.labels = true ↔ a.symbolFile = a'.symbolFile) := by
  have hrows := forall₂_symbolRows hp h
  refine ⟨⟨a.labels.sortedPairs, a.symbolRows, a.symbolFile_eq, lines_symbolFile hp h, ?_, ?_,
    hrows, map_symbolPair? hrows, fun label value => LabelTable.mem_sortedPairs_iff⟩, ?_⟩
  · rw [symbolRows, List.length_map]
    exact List.length_mergeSort _
  · exact a.labels.pairwise_sortedPairs.imp codePoints_lt
  · intro settings' p' a' hp' h'
    rw [← LabelTable.sortedPairs_eq_iff]
    refine ⟨symbolFile_congr, fun htext => ?_⟩
    -- the rows are those of the text, and the pairs are read from the rows
    have hlines : symbolHeader ++ a.symbolRows = symbolHeader ++ a'.symbolRows := by
      rw [← lines_symbolFile hp h, ← lines_symbolFile hp' h', htext]
    have hpairs : a.labels.sortedPairs.map some = a'.labels.sortedPairs.map some := by
      rw [← map_symbolPair? hrows, ← map_symbolPair? (forall₂_symbolRows hp' h'),
        List.append_cancel_left hlines]
    exact List.map_injective_iff.2 (Option.some_injective _) hpairs

/-- A program whose labels are defined in descending order. -/
def descendingSource : String :=
  " ORG 10\nβ DEC 0\n ORG 5\n#A DEC 0\n END\n"

/-- A program that defines its first label again, so that its labels have the same addresses. -/
def redefiningSource : String :=
  "#A DEC 0\n ORG 5\n#A DEC 1\n ORG 10\nβ DEC 2\n"

theorem symbolFile_canonical_of_redefiningSource :
    ∃ p p' a a',
      SourceStatement.ofSource descendingSource none ";/" = .ok p ∧
      SourceStatement.ofSource redefiningSource none ";/" = .ok p' ∧
      assemble {} p = .ok a ∧ assemble { allowRebinding := true } p' = .ok a' ∧
      a.labels.labels = ["β", "#A"] ∧ a'.labels.labels = ["#A", "β"] ∧
      (∃ rows, Text.lines a.symbolFile = ["# Symbol table", "# Generated by manoasm"] ++ rows ∧
        rows.length = 2 ∧ some ("β", 16) ∈ rows.map symbolPair?) ∧
      a.symbolFile = a'.symbolFile := by
  obtain ⟨p, hp⟩ : ∃ p, SourceStatement.ofSource descendingSource none ";/" = .ok p := ⟨_, rfl⟩
  obtain ⟨p', hp'⟩ : ∃ p, SourceStatement.ofSource redefiningSource none ";/" = .ok p := ⟨_, rfl⟩
  have hruns : ((assemble {} p).toOption.bind fun a =>
      (assemble { allowRebinding := true } p').toOption.map fun a' =>
        (a.labels.labels, a'.labels.labels, a.labels.size, a.labels.value? "β",
          a.labels.agrees a'.labels)) =
      some (["β", "#A"], ["#A", "β"], 2, some 16, true) := by
    cases hp
    cases hp'
    decide +kernel
  obtain ⟨a, ha, hmap⟩ := Option.bind_eq_some_iff.1 hruns
  obtain ⟨a', ha', hfacts⟩ := Option.map_eq_some_iff.1 hmap
  have ha := eq_ok_of_toOption ha
  have ha' := eq_ok_of_toOption ha'
  simp only [Prod.mk.injEq] at hfacts
  obtain ⟨hlabels, hlabels', hsize, hvalue, hagrees⟩ := hfacts
  obtain ⟨⟨pairs, rows, -, hlines, hlength, -, -, hread, hpairs⟩, hsame⟩ :=
    symbolFile_canonical (.source _ _ _ hp) ha
  refine ⟨p, p', a, a', hp, hp', ha, ha', hlabels, hlabels', ⟨rows, hlines, ?_, ?_⟩,
    (hsame _ _ _ (.source _ _ _ hp') ha').1 hagrees⟩
  · rw [hlength, hsize]
  · rw [hread]
    exact List.mem_map_of_mem ((hpairs "β" 16).2 hvalue)

end Assembly

end TwoPass
