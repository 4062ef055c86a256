import TwoPass.Diagnostic
import TwoPass.Text.Similarity

/-!
# Label tables

A table binds labels to addresses, in the order in which they were first bound. It is open while
the addresses are laid out and closed afterwards; a closed table binds nothing more.

No label is bound twice: binding it again replaces its binding in place. `find?_put` and
`labels_put` say what a table holds after that.
-/

namespace TwoPass

/-- A label, the address it stands for, and where it was defined. -/
structure Binding where
  label : String
  value : Int
  location : Option Location := none
  deriving DecidableEq, Repr

structure LabelTable where
  bindings : List Binding
  isClosed : Bool
  distinct : (bindings.map (·.label)).Nodup
  deriving DecidableEq, Repr

namespace LabelTable

/-- The open table without bindings. -/
def empty : LabelTable :=
  ⟨[], false, List.nodup_nil⟩

/-- The labels in the order in which they were first bound. -/
def labels (t : LabelTable) : List String :=
  t.bindings.map (·.label)

def size (t : LabelTable) : Nat :=
  t.bindings.length

def find? (t : LabelTable) (label : String) : Option Binding :=
  t.bindings.find? (·.label == label)

def contains (t : LabelTable) (label : String) : Bool :=
  (t.find? label).isSome

/-- The address that a label stands for. -/
def value? (t : LabelTable) (label : String) : Option Int :=
  (t.find? label).map (·.value)

/-- The labels with their addresses. -/
def toList (t : LabelTable) : List (String × Int) :=
  t.bindings.map fun b => (b.label, b.value)

def close (t : LabelTable) : LabelTable :=
  { t with isClosed := true }

/-- The bindings with that of `b`'s label replaced by `b`. -/
def replace (b : Binding) (bs : List Binding) : List Binding :=
  bs.map fun old => if old.label = b.label then b else old

theorem map_label_replace (b : Binding) (bs : List Binding) :
    (replace b bs).map (·.label) = bs.map (·.label) := by
  simp only [replace, List.map_map]
  apply List.map_congr_left
  intro old _
  by_cases h : old.label = b.label <;> simp [h]

theorem nodup_labels_append {b : Binding} {bs : List Binding} (hd : (bs.map (·.label)).Nodup)
    (hb : b.label ∉ bs.map (·.label)) : ((bs ++ [b]).map (·.label)).Nodup := by
  rw [List.map_append, List.nodup_append]
  refine ⟨hd, by simp, ?_⟩
  intro x hx y hy hxy
  simp only [List.map_cons, List.map_nil, List.mem_singleton] at hy
  exact hb (hy ▸ hxy ▸ hx)

/-- The table with a binding put in, in place of one of the same label or else at the end. -/
def put (t : LabelTable) (b : Binding) : LabelTable :=
  if h : b.label ∈ t.bindings.map (·.label) then
    { t with
      bindings := replace b t.bindings
      distinct := by rw [map_label_replace]; exact t.distinct }
  else
    { t with
      bindings := t.bindings ++ [b]
      distinct := nodup_labels_append t.distinct h }

theorem replace_cons (b old : Binding) (bs : List Binding) :
    replace b (old :: bs) = (if old.label = b.label then b else old) :: replace b bs := rfl

/-- Labels other than the replaced one are found as before. -/
theorem find?_replace_of_ne {b : Binding} {label : String} (h : label ≠ b.label)
    (bs : List Binding) :
    (replace b bs).find? (·.label == label) = bs.find? (·.label == label) := by
  induction bs with
  | nil => rfl
  | cons old bs ih =>
    rw [replace_cons, List.find?_cons, List.find?_cons, ih]
    by_cases ho : old.label = b.label
    · have hb : (b.label == label) = false := by simpa using h.symm
      rw [if_pos ho, ho, hb]
    · rw [if_neg ho]

/-- The replaced label is found in its new binding. -/
theorem find?_replace_self {b : Binding} {bs : List Binding} (h : b.label ∈ bs.map (·.label)) :
    (replace b bs).find? (·.label == b.label) = some b := by
  induction bs with
  | nil => simp at h
  | cons old bs ih =>
    rw [replace_cons, List.find?_cons]
    by_cases ho : old.label = b.label
    · rw [if_pos ho, beq_self_eq_true]
    · have hb : (old.label == b.label) = false := by simpa using ho
      rw [if_neg ho, hb]
      rw [List.map_cons, List.mem_cons] at h
      exact ih (h.resolve_left fun e => ho e.symm)

theorem find?_put (t : LabelTable) (b : Binding) (label : String) :
    (t.put b).find? label = if label = b.label then some b else t.find? label := by
  unfold put
  split
  · rename_i h
    split
    · rename_i hl
      subst hl
      exact find?_replace_self h
    · rename_i hl
      exact find?_replace_of_ne hl t.bindings
  · rename_i h
    change (t.bindings ++ [b]).find? (·.label == label) = _
    rw [List.find?_append, List.find?_singleton]
    by_cases hl : label = b.label
    · have hn : t.bindings.find? (·.label == label) = none := by
        rw [List.find?_eq_none]
        intro x hx hxb
        exact h (List.mem_map.2 ⟨x, hx, (beq_iff_eq.1 hxb).trans hl⟩)
      rw [hn, if_pos (beq_iff_eq.2 hl.symm), if_pos hl]
      rfl
    · rw [if_neg fun e => hl (beq_iff_eq.1 e).symm, if_neg hl, Option.or_none]
      rfl

theorem labels_put (t : LabelTable) (b : Binding) :
    (t.put b).labels = if b.label ∈ t.labels then t.labels else t.labels ++ [b.label] := by
  unfold put labels
  split
  · rename_i h
    exact map_label_replace b t.bindings
  · rename_i h
    exact List.map_append

/-- Defines a label at an address. A label that is bound already is bound again only if `rebind`
says so; its former binding is then handed back. -/
def define (t : LabelTable) (label : String) (address : Int) (origin : Origin) (rebind : Bool) :
    Except Diagnostic (LabelTable × Option Binding) :=
  if t.isClosed then .error ⟨.tableClosed label, { location := origin.location }⟩
  else
    match t.find? label with
    | none => .ok (t.put ⟨label, address, origin.location⟩, none)
    | some before =>
      if rebind then .ok (t.put ⟨label, address, origin.location⟩, some before)
      else .error ⟨.duplicateLabel label before.location, origin⟩

/-- The open table of some labels and addresses, where a later pair replaces an earlier one. -/
def ofPairs (pairs : List (String × Int)) : LabelTable :=
  pairs.foldl (fun t (label, value) => t.put { label, value }) empty

/-- Whether two tables bind the same labels to the same addresses, in any order. -/
def agrees (t u : LabelTable) : Bool :=
  t.size == u.size && t.bindings.all fun b => u.value? b.label == some b.value

/-- The refusal of a limit that leaves room for no label. -/
structure NoRoom where
  limit : Int
  deriving DecidableEq, Repr

def NoRoom.message (e : NoRoom) : String :=
  "n must be > 0: " ++ Numeral.decimal e.limit

/-- The bound labels that look like a name, best first, at most `limit` of them. -/
def similar (t : LabelTable) (name : String) (limit : Int) : Except NoRoom (List String) :=
  if limit ≤ 0 then .error ⟨limit⟩ else .ok (Similarity.closest limit.toNat name t.labels)

/-- The bindings in the order of their labels' code points. -/
def sorted (t : LabelTable) : List Binding :=
  t.bindings.mergeSort fun a b => a.label ≤ b.label

/-- The table as it is shown to a person. -/
def shown (t : LabelTable) : String :=
  "SymbolTable(" ++
    ", ".intercalate (t.bindings.map fun b => b.label ++ "=" ++ Numeral.address b.value) ++ ")"

end LabelTable

end TwoPass
