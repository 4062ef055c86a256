import TwoPass.Proofs.Diagnostics
import TwoPass.Proofs.Positional

/-!
# Rows of columns

A text of rows has a line feed at the end of each. A row is read by its columns alone: some hold a
fixed text, some a number, and what follows the last of them is kept. A number may stand in several
places of a row, in one base or another, and is read only if they agree.
-/

namespace TwoPass

/-- A text of rows, each of which a line feed ends. -/
def HasRows (text : String) (rows : List (List Char)) : Prop :=
  text.toList.splitOn '\n' = rows ++ [[]]

theorem splitOn_rows {rows : List (List Char)} (hrows : ∀ row ∈ rows, '\n' ∉ row) :
    (rows.flatMap (· ++ ['\n'])).splitOn '\n' = rows ++ [[]] := by
  induction rows with
  | nil => rfl
  | cons row rows ih =>
    obtain ⟨hrow, hrest⟩ := List.forall_mem_cons.1 hrows
    rw [List.flatMap_cons, splitOn_row hrow, ih hrest]
    rfl

theorem hasRows_join {lines : List String} (h : ∀ line ∈ lines, OneLine line) :
    HasRows (String.join (lines.map (· ++ "\n"))) (lines.map String.toList) := by
  rw [HasRows, Text.toList_join_lines]
  apply splitOn_rows
  intro row hrow
  obtain ⟨line, hline, rfl⟩ := List.mem_map.1 hrow
  exact h line hline

theorem join_lines {lines : List String} (hne : lines ≠ []) :
    String.join (lines.map (· ++ "\n")) = "\n".intercalate lines ++ "\n" := by
  induction lines with
  | nil => exact absurd rfl hne
  | cons line lines ih =>
    cases lines with
    | nil => simp
    | cons next lines =>
      have hrest := ih (List.cons_ne_nil _ _)
      rw [List.map_cons, String.join_cons, hrest, String.intercalate_cons_cons, String.append_assoc,
        String.append_assoc, String.append_assoc]

/-! ## Numbers in columns -/

namespace Numeral

/-- The number that digits stand for, if they are digits of the base. -/
def read? (base : Nat) (ds : List Char) : Option Nat :=
  if !ds.isEmpty && ds.all (fun d => isUpperHexDigit d && digitValue d < base) then
    some (value base ds)
  else none

theorem read?_of_denotes {base n : Nat} (hle : base ≤ 16) {ds : List Char}
    (hupper : ∀ d ∈ ds, isUpperHexDigit d = true) (h : Denotes base ds n) :
    read? base ds = some n := by
  obtain ⟨hne, hdigits, hvalue⟩ := (denotes_iff hle).1 h
  have hall : ds.all (fun d => isUpperHexDigit d && digitValue d < base) = true := by
    rw [List.all_eq_true]
    intro d hd
    rw [hupper d hd, Bool.true_and]
    exact decide_eq_true (hdigits d hd).2
  rw [read?, List.isEmpty_eq_false_iff.2 hne, hall, hvalue]
  rfl

section Padded

variable {base : Nat} (hb : 1 < base) (hle : base ≤ 16) (width n : Nat)

include hb hle

theorem read?_padded : read? base (padded base width n).toList = some n := by
  refine read?_of_denotes hle ?_ (denotes_padded hb hle width n)
  intro c hc
  obtain ⟨d, hd, rfl⟩ := exists_digit_of_mem_padded hb hc
  exact isUpperHexDigit_digit (by omega)

omit hle in
theorem length_alignRight {column : Nat} (hc : 0 < column) (hn : n < base ^ column) :
    (Text.alignRight column (padded base 0 n)).toList.length = column := by
  have hlength := (length_digits_le_iff hb hc).2 hn
  rw [Text.alignRight, String.toList_ofList, List.length_leftpad, toList_padded,
    List.length_leftpad]
  omega

/-- Blanks before a numeral are told from its digits. -/
theorem dropWhile_alignRight (column : Nat) :
    (Text.alignRight column (padded base width n)).toList.dropWhile (· == ' ') =
      (padded base width n).toList := by
  have hdigit : ∀ c ∈ (padded base width n).toList, (c == ' ') = false := by
    intro c hc
    obtain ⟨d, hd, rfl⟩ := exists_digit_of_mem_padded hb hc
    have hupper := isUpperHexDigit_digit (d := d) (by omega)
    rw [beq_eq_false_iff_ne]
    intro hblank
    rw [hblank] at hupper
    exact absurd hupper (by decide)
  rw [Text.alignRight, String.toList_ofList, List.leftpad, List.dropWhile_append_of_pos,
    List.dropWhile_eq_self_iff]
  · intro hpos
    rw [hdigit _ (List.getElem_mem hpos)]
    exact Bool.false_ne_true
  · intro c hc
    rw [List.eq_of_mem_replicate hc]
    rfl

end Padded

end Numeral

/-- The characters of a row in so many columns from `first` on. -/
def columns (row : List Char) (first width : Nat) : List Char :=
  (row.drop first).take width

section Parts

variable {parts : List (List Char)} {widths : List Nat}
  (hwidths : parts.map List.length = widths) (k : Nat)

include hwidths

theorem drop_flatten : parts.flatten.drop (widths.take k).sum = (parts.drop k).flatten := by
  have hbefore : (parts.take k).flatten.length = (widths.take k).sum := by
    rw [List.length_flatten, List.map_take, hwidths]
  have hsplit : parts.flatten = (parts.take k).flatten ++ (parts.drop k).flatten := by
    rw [← List.flatten_append, List.take_append_drop]
  rw [hsplit, List.drop_left' hbefore]

/-- A part of a row stands in the columns that the widths of the parts before it leave. -/
theorem columns_flatten {part : List Char} {width : Nat} (hpart : parts[k]? = some part)
    (hwidth : widths[k]? = some width) :
    columns parts.flatten (widths.take k).sum width = part := by
  have hlength : part.length = width := by
    rw [← hwidths, List.getElem?_map, hpart] at hwidth
    exact Option.some.inj hwidth
  obtain ⟨hk, rfl⟩ := List.getElem?_eq_some_iff.1 hpart
  rw [columns, drop_flatten hwidths, ← List.getElem_cons_drop hk, List.flatten_cons,
    List.take_left' hlength]

end Parts

/-- A number in columns of a row. It fills them, with blanks before its digits if it is aligned to
the right. -/
structure NumberColumns where
  base : Nat
  first : Nat
  width : Nat
  aligned : Bool := false

namespace NumberColumns

def read? (f : NumberColumns) (row : List Char) : Option Nat :=
  let shown := columns row f.first f.width
  if shown.length = f.width then
    Numeral.read? f.base (if f.aligned then shown.dropWhile (· == ' ') else shown)
  else none

/-- The number that several places of a row agree on. -/
def readAll? (fs : List NumberColumns) (row : List Char) : Option Nat :=
  match fs with
  | [] => none
  | f :: rest => (f.read? row).filter fun n => rest.all fun g => g.read? row == some n

variable {base first width n : Nat} {row : List Char}

section Read

variable (hb : 1 < base) (hle : base ≤ 16) (hw : 0 < width) (hn : n < base ^ width)

include hb hle hw hn

theorem read?_of_padded
    (h : columns row first width = (Numeral.padded base width n).toList) :
    read? ⟨base, first, width, false⟩ row = some n := by
  have hlength := Numeral.length_padded hb hw hn
  unfold read?
  simp only [h, hlength, if_true, Bool.false_eq_true, if_false]
  exact Numeral.read?_padded hb hle width n

theorem read?_of_alignRight
    (h : columns row first width = (Text.alignRight width (Numeral.padded base 0 n)).toList) :
    read? ⟨base, first, width, true⟩ row = some n := by
  have hlength := Numeral.length_alignRight hb n hw hn
  unfold read?
  simp only [h, hlength, if_true]
  rw [Numeral.dropWhile_alignRight hb hle, Numeral.read?_padded hb hle]

end Read

theorem readAll?_of_forall {fs : List NumberColumns} (hne : fs ≠ [])
    (h : ∀ f ∈ fs, f.read? row = some n) : readAll? fs row = some n := by
  cases fs with
  | nil => exact absurd rfl hne
  | cons f rest =>
    obtain ⟨hfirst, hrest⟩ := List.forall_mem_cons.1 h
    have hagree : (rest.all fun g => g.read? row == some n) = true := by
      rw [List.all_eq_true]
      intro g hg
      rw [hrest g hg, beq_self_eq_true]
    rw [readAll?, hfirst, Option.filter_some, if_pos hagree]

end NumberColumns

/-- What a row shows of a word, and what follows that. -/
structure Shown where
  address : Nat
  word : Nat
  rest : String
  deriving DecidableEq, Repr

/-- The columns of a row that shows a word and its address. -/
structure RowFormat where
  /-- The texts that every row has, with the columns in which they start. -/
  marks : List (Nat × String)
  addresses : List NumberColumns
  words : List NumberColumns
  /-- The columns before the rest of the row. -/
  width : Nat

def RowFormat.read? (f : RowFormat) (row : List Char) : Option Shown :=
  if ∀ m ∈ f.marks, columns row m.1 m.2.toList.length = m.2.toList then
    match NumberColumns.readAll? f.addresses row, NumberColumns.readAll? f.words row with
    | some address, some word => some ⟨address, word, String.ofList (row.drop f.width)⟩
    | _, _ => none
  else none

theorem RowFormat.read?_eq_some {f : RowFormat} {row : List Char} {shown : Shown}
    (hmarks : ∀ m ∈ f.marks, columns row m.1 m.2.toList.length = m.2.toList)
    (haddresses : f.addresses ≠ [] ∧ ∀ g ∈ f.addresses, g.read? row = some shown.address)
    (hwords : f.words ≠ [] ∧ ∀ g ∈ f.words, g.read? row = some shown.word)
    (hrest : row.drop f.width = shown.rest.toList) : f.read? row = some shown := by
  rw [read?, if_pos hmarks, NumberColumns.readAll?_of_forall haddresses.1 haddresses.2,
    NumberColumns.readAll?_of_forall hwords.1 hwords.2, hrest, String.ofList_toList]

end TwoPass
