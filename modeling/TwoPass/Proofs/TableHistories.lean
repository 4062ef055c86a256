import Mathlib.Data.List.Induction
import Mathlib.Data.List.Perm.Subperm
import TwoPass.Proofs.Blocks
import TwoPass.Proofs.Sections

/-!
# Histories of a label table

A table can be asked to define a label, to close, or for something that it holds, in any order and
whatever it was asked before. What it holds then is told by the definitions that it accepted: the
last one of a label is its binding, and the first one its place among the labels. A refused
definition and a question change nothing, and a closed table nothing at all.
-/

namespace TwoPass

namespace LabelTable

/-- What can be asked about a table. -/
inductive Query where
  | value (label : String)
  | contains (label : String)
  | labels
  | size
  | isClosed
  | pairs
  | similar (name : String) (limit : Int)
  | agrees (other : LabelTable)
  | shown

inductive Answer where
  | address (value : Option Int)
  | truth (holds : Bool)
  | labels (labels : List String)
  | count (size : Nat)
  | pairs (values : List (String × Int))
  | similar (found : Except NoRoom (List String))
  | text (shown : String)

def answer (t : LabelTable) : Query → Answer
  | .value label => .address (t.value? label)
  | .contains label => .truth (t.contains label)
  | .labels => .labels t.labels
  | .size => .count t.size
  | .isClosed => .truth t.isClosed
  | .pairs => .pairs t.toList
  | .similar name limit => .similar (t.similar name limit)
  | .agrees other => .truth (t.agrees other)
  | .shown => .text t.shown

/-- What can be called on a table. -/
inductive Request where
  | define (label : String) (address : Int) (origin : Origin) (rebind : Bool)
  | close
  | ask (q : Query)

/-- What is given back to a request. -/
inductive Response where
  /-- The label was bound, and this is the binding that it had. -/
  | bound (before : Option Binding)
  | refused (d : Diagnostic)
  | closed
  | answered (answer : Answer)

/-- The table after a request, and what is given back. -/
def serve (t : LabelTable) : Request → LabelTable × Response
  | .define label address origin rebind =>
    match t.define label address origin rebind with
    | .ok (t, before) => (t, .bound before)
    | .error d => (t, .refused d)
  | .close => (t.close, .closed)
  | .ask q => (t, .answered (t.answer q))

/-- The table that a new one has become after requests in order. -/
def reached (requests : List Request) : LabelTable :=
  requests.foldl (fun t r => (t.serve r).1) empty

/-- The binding that a request makes, if it is a definition that the table accepts. -/
def accepts? (t : LabelTable) (r : Request) : Option Binding :=
  match r, (t.serve r).2 with
  | .define label address origin _, .bound _ => some ⟨label, address, origin.location⟩
  | _, _ => none

/-- The bindings that the accepted definitions among some requests made, the first one first. -/
def acceptedFrom (t : LabelTable) : List Request → List Binding
  | [] => []
  | r :: rest => (t.accepts? r).toList ++ acceptedFrom (t.serve r).1 rest

/-- The bindings made by the accepted definitions in a history of a new table. -/
def accepted (requests : List Request) : List Binding :=
  acceptedFrom empty requests

/-- The last of some bindings that has a label. -/
def lastOf (label : String) (bs : List Binding) : Option Binding :=
  bs.findRev? (·.label == label)

theorem lastOf_concat (label : String) (bs : List Binding) (b : Binding) :
    lastOf label (bs ++ [b]) = if label = b.label then some b else lastOf label bs := by
  unfold lastOf
  rw [findRev?_concat]
  by_cases h : label = b.label
  · rw [if_pos h, if_pos (beq_iff_eq.2 h.symm)]
  · rw [if_neg h, if_neg fun he => h (beq_iff_eq.1 he).symm]

theorem lastOf_eq_none_iff {label : String} {bs : List Binding} :
    lastOf label bs = none ↔ ∀ b ∈ bs, b.label ≠ label := by
  unfold lastOf
  rw [List.findRev?_eq_find?_reverse, List.find?_eq_none]
  simp only [List.mem_reverse, beq_iff_eq, ne_eq]

/-- Whether a table refuses to define a label: it is closed, or it binds the label already and may
not bind it again. -/
def Refuses (t : LabelTable) (label : String) (rebind : Bool) : Prop :=
  t.isClosed = true ∨ t.find? label ≠ none ∧ rebind = false

theorem define_cases (t : LabelTable) (label : String) (address : Int) (origin : Origin)
    (rebind : Bool) :
    (t.Refuses label rebind ∧ ∃ d, t.define label address origin rebind = .error d) ∨
    (¬ t.Refuses label rebind ∧ t.define label address origin rebind =
      .ok (t.put ⟨label, address, origin.location⟩, t.find? label)) := by
  unfold define Refuses
  cases hclosed : t.isClosed with
  | true => exact Or.inl ⟨Or.inl rfl, _, rfl⟩
  | false =>
    -- an open table looks at the binding first, and at the flag only if there is one
    cases hfound : t.find? label with
    | none => exact Or.inr ⟨by simp, rfl⟩
    | some before =>
      cases rebind with
      | false => exact Or.inl ⟨Or.inr ⟨Option.some_ne_none _, rfl⟩, _, rfl⟩
      | true => exact Or.inr ⟨by simp, rfl⟩

/-- What a definition does: a refused one nothing, and any other binds its label and hands back what
the label was bound to. -/
theorem serve_define (t : LabelTable) (label : String) (address : Int) (origin : Origin)
    (rebind : Bool) :
    (t.Refuses label rebind ∧
      ∃ d, t.serve (.define label address origin rebind) = (t, .refused d)) ∨
    (¬ t.Refuses label rebind ∧ t.serve (.define label address origin rebind) =
      (t.put ⟨label, address, origin.location⟩, .bound (t.find? label))) := by
  rcases t.define_cases label address origin rebind with ⟨hrefused, d, hd⟩ | ⟨hnot, hd⟩
  · refine Or.inl ⟨hrefused, d, ?_⟩
    simp only [serve, hd]
  · refine Or.inr ⟨hnot, ?_⟩
    simp only [serve, hd]

/-- What a request can do: bind a label, be refused, close the table, or ask. -/
theorem serve_cases (t : LabelTable) (r : Request) :
    (∃ label address origin rebind, r = .define label address origin rebind ∧
      ¬ t.Refuses label rebind ∧
      t.serve r = (t.put ⟨label, address, origin.location⟩, .bound (t.find? label))) ∨
    (∃ label address origin rebind d, r = .define label address origin rebind ∧
      t.serve r = (t, .refused d)) ∨
    (r = .close ∧ t.serve r = (t.close, .closed)) ∨
    ∃ q, r = .ask q ∧ t.serve r = (t, .answered (t.answer q)) := by
  cases r with
  | close => exact Or.inr (Or.inr (Or.inl ⟨rfl, rfl⟩))
  | ask q => exact Or.inr (Or.inr (Or.inr ⟨q, rfl, rfl⟩))
  | define label address origin rebind =>
    rcases t.serve_define label address origin rebind with ⟨-, d, hd⟩ | ⟨hnot, hserve⟩
    · exact Or.inr (Or.inl ⟨label, address, origin, rebind, d, rfl, hd⟩)
    · exact Or.inl ⟨label, address, origin, rebind, rfl, hnot, hserve⟩

/-! ## Any history -/

theorem reached_concat (requests : List Request) (r : Request) :
    reached (requests ++ [r]) = ((reached requests).serve r).1 := by
  unfold reached
  rw [List.foldl_append]
  rfl

theorem acceptedFrom_append (t : LabelTable) (requests more : List Request) :
    acceptedFrom t (requests ++ more) = acceptedFrom t requests ++
      acceptedFrom (requests.foldl (fun t r => (t.serve r).1) t) more := by
  induction requests generalizing t with
  | nil => rfl
  | cons r requests ih =>
    show (t.accepts? r).toList ++ acceptedFrom (t.serve r).1 (requests ++ more) = _
    rw [ih, ← List.append_assoc]
    rfl

theorem accepted_concat (requests : List Request) (r : Request) :
    accepted (requests ++ [r]) =
      accepted requests ++ ((reached requests).accepts? r).toList := by
  show acceptedFrom empty (requests ++ [r]) = _
  rw [acceptedFrom_append]
  show _ ++ (((reached requests).accepts? r).toList ++ []) = _
  rw [List.append_nil]
  rfl

/-- What the requests to a new table leave in it, told by the definitions that it accepted. -/
structure Tells (requests : List Request) (bound : List Binding) (t : LabelTable) : Prop where
  isClosed : t.isClosed = true ↔ Request.close ∈ requests
  find? : ∀ label, t.find? label = lastOf label bound
  labels : t.labels = (bound.map (·.label)).eraseDups

/-- A request that binds nothing and leaves the table as it is tells nothing new, unless it closes
the table. -/
theorem Tells.unchanged {requests : List Request} {bound : List Binding} {t : LabelTable}
    (h : Tells requests bound t) {r : Request} (hr : r ≠ .close) :
    Tells (requests ++ [r]) (bound ++ []) t := by
  rw [List.append_nil]
  refine ⟨?_, h.find?, h.labels⟩
  rw [h.isClosed, List.mem_append, List.mem_singleton]
  exact ⟨Or.inl, fun hmem => hmem.resolve_right (Ne.symm hr)⟩

theorem tells_reached (requests : List Request) :
    Tells requests (accepted requests) (reached requests) := by
  induction requests using List.reverseRecOn with
  | nil => exact ⟨iff_of_false Bool.false_ne_true List.not_mem_nil, fun _ => rfl, rfl⟩
  | append_singleton requests r ih =>
    rw [reached_concat, accepted_concat]
    unfold accepts?
    rcases serve_cases (reached requests) r with
      ⟨label, address, origin, rebind, rfl, -, hserve⟩ |
      ⟨label, address, origin, rebind, d, rfl, hserve⟩ | ⟨rfl, hserve⟩ | ⟨q, rfl, hserve⟩
    · -- an accepted definition replaces the last binding of its label, or adds the label
      rw [hserve]
      show Tells _ (accepted requests ++ [⟨label, address, origin.location⟩])
        ((reached requests).put ⟨label, address, origin.location⟩)
      refine ⟨?_, ?_, ?_⟩
      · rw [isClosed_put, ih.isClosed]
        simp
      · intro name
        rw [find?_put, lastOf_concat, ih.find?]
      · rw [labels_put, List.map_append, List.map_singleton, Layout.eraseDups_concat, ih.labels]
    · rw [hserve]
      exact ih.unchanged nofun
    · rw [hserve]
      show Tells _ (accepted requests ++ []) (reached requests).close
      rw [List.append_nil]
      exact ⟨iff_of_true rfl (by simp), ih.find?, ih.labels⟩
    · rw [hserve]
      exact ih.unchanged nofun

theorem serve_of_closed {t : LabelTable} (h : t.isClosed = true) (r : Request) :
    (t.serve r).1 = t := by
  rcases serve_cases t r with
    ⟨label, address, origin, rebind, rfl, hnot, -⟩ |
    ⟨label, address, origin, rebind, d, rfl, hserve⟩ | ⟨rfl, hserve⟩ | ⟨q, rfl, hserve⟩
  · exact absurd (Or.inl h) hnot
  · rw [hserve]
  · rw [hserve]
    show ({ t with isClosed := true } : LabelTable) = t
    rw [← h]
  · rw [hserve]

/-- A closed table stays as it is. -/
theorem reached_append_of_closed {requests : List Request} (h : .close ∈ requests)
    (more : List Request) : reached (requests ++ more) = reached requests := by
  have hclosed := (tells_reached requests).isClosed.2 h
  induction more using List.reverseRecOn with
  | nil => rw [List.append_nil]
  | append_singleton more r ih =>
    rw [← List.append_assoc, reached_concat, ih, serve_of_closed hclosed]

/-- Tables agree exactly if they give every label the same address. -/
theorem agrees_iff_value?_eq {t u : LabelTable} :
    t.agrees u = true ↔ ∀ label, t.value? label = u.value? label := by
  refine ⟨fun h => ?_, fun h => agrees_of_value?_eq (funext h)⟩
  unfold agrees at h
  rw [Bool.and_eq_true_iff, beq_iff_eq, List.all_eq_true] at h
  obtain ⟨hsize, hvalues⟩ := h
  have hbound : ∀ b ∈ t.bindings, u.value? b.label = some b.value := by
    intro b hb
    exact beq_iff_eq.1 (hvalues b hb)
  -- every label of `t` is one of `u`, and there are as many of them
  have hsubset : t.labels ⊆ u.labels := by
    intro label hlabel
    obtain ⟨b, hb, rfl⟩ := List.mem_map.1 hlabel
    exact mem_labels_iff.2 ⟨b.value, hbound b hb⟩
  have hlength : u.labels.length ≤ t.labels.length := by
    unfold labels
    rw [List.length_map, List.length_map]
    exact Nat.le_of_eq hsize.symm
  have hperm := (List.subperm_of_subset t.distinct hsubset).perm_of_length_le hlength
  intro label
  by_cases hlabel : label ∈ t.labels
  · obtain ⟨b, hb, rfl⟩ := List.mem_map.1 hlabel
    rw [hbound b hb, value?, find?_of_mem hb]
    rfl
  · have hnone : ∀ v : LabelTable, label ∉ v.labels → v.value? label = none := by
      intro v hv
      cases hfound : v.value? label with
      | none => rfl
      | some value => exact absurd (mem_labels_iff.2 ⟨value, hfound⟩) hv
    rw [hnone t hlabel, hnone u fun hu => hlabel (hperm.mem_iff.2 hu)]

theorem contains_iff_mem_labels {t : LabelTable} {label : String} :
    t.contains label = true ↔ label ∈ t.labels := by
  rw [mem_labels_iff, contains, value?]
  cases t.find? label <;> simp

theorem size_eq (t : LabelTable) : t.size = t.labels.length := by
  unfold size labels
  rw [List.length_map]

/-- The history of a table tells all about it. A definition is refused exactly if the table was
closed before, or if a definition of the label was accepted and it may not be bound again; nothing
changes then. Otherwise the last accepted binding of the label is handed back. A look-up finds that
binding, the labels stand in the order in which they were first accepted, and once a table is closed
it stays as it is. Tables agree exactly if all look-ups in them do, whatever their histories. -/
theorem history_tells_table (requests : List Request) :
    (∀ label address origin rebind,
      ((∃ d, ((reached requests).serve (.define label address origin rebind)).2 = .refused d) ↔
        .close ∈ requests ∨ (∃ b ∈ accepted requests, b.label = label) ∧ rebind = false) ∧
      (∀ d, ((reached requests).serve (.define label address origin rebind)).2 = .refused d →
        reached (requests ++ [.define label address origin rebind]) = reached requests) ∧
      ((¬ ∃ d, ((reached requests).serve (.define label address origin rebind)).2 = .refused d) →
        ((reached requests).serve (.define label address origin rebind)).2 =
          .bound (lastOf label (accepted requests)) ∧
        accepted (requests ++ [.define label address origin rebind]) =
          accepted requests ++ [⟨label, address, origin.location⟩])) ∧
    (∀ q, (reached requests).serve (.ask q) =
      (reached requests, .answered ((reached requests).answer q))) ∧
    (∀ label,
      (reached requests).value? label = (lastOf label (accepted requests)).map (·.value) ∧
      ((reached requests).value? label = none ↔ ∀ b ∈ accepted requests, b.label ≠ label)) ∧
    (reached requests).labels = ((accepted requests).map (·.label)).eraseDups ∧
    (reached requests).labels.Nodup ∧
    (reached requests).size = (reached requests).labels.length ∧
    (∀ label, (reached requests).contains label = true ↔ label ∈ (reached requests).labels) ∧
    ((reached requests).isClosed = true ↔ .close ∈ requests) ∧
    (.close ∈ requests → ∀ more, reached (requests ++ more) = reached requests) ∧
    ∀ requests', (reached requests).agrees (reached requests') = true ↔
      ∀ label, (reached requests).value? label = (reached requests').value? label := by
  have htells := tells_reached requests
  have hvalue : ∀ label, (reached requests).value? label =
      (lastOf label (accepted requests)).map (·.value) := by
    intro label
    rw [value?, htells.find?]
  refine ⟨?_, fun q => rfl, ?_, htells.labels, (reached requests).distinct,
    (reached requests).size_eq, fun label => contains_iff_mem_labels, htells.isClosed,
    reached_append_of_closed, fun requests' => agrees_iff_value?_eq⟩
  · intro label address origin rebind
    have hrefuses : (reached requests).Refuses label rebind ↔
        .close ∈ requests ∨ (∃ b ∈ accepted requests, b.label = label) ∧ rebind = false := by
      rw [Refuses, htells.isClosed, htells.find?, ne_eq, lastOf_eq_none_iff]
      simp
    rw [← hrefuses, reached_concat, accepted_concat]
    unfold accepts?
    rcases (reached requests).serve_define label address origin rebind with
      ⟨hrefused, d, hd⟩ | ⟨hnot, hserve⟩
    · rw [hd]
      exact ⟨iff_of_true ⟨d, rfl⟩ hrefused, fun _ _ => rfl, fun hnot => absurd ⟨d, rfl⟩ hnot⟩
    · rw [hserve]
      refine ⟨⟨?_, fun h => absurd h hnot⟩, ?_, ?_⟩
      · rintro ⟨d, hd⟩
        cases hd
      · intro d hd
        cases hd
      · intro _
        rw [← htells.find?]
        exact ⟨rfl, rfl⟩
  · intro label
    refine ⟨hvalue label, ?_⟩
    rw [hvalue, Option.map_eq_none_iff, lastOf_eq_none_iff]

/-- Two labels, one of which is refused once and bound again later, and a third that comes after the
table was closed. -/
def mixedRequests : List Request :=
  [.define "A" 5 {} true, .define "A" 6 {} false, .define "B" (-1) {} false, .ask (.value "A"),
   .define "A" 7 {} true, .close, .define "C" 9 {} true]

theorem history_tells_table_of_mixedRequests :
    accepted mixedRequests = [⟨"A", 5, none⟩, ⟨"B", -1, none⟩, ⟨"A", 7, none⟩] ∧
    (reached mixedRequests).labels = ["A", "B"] ∧
    (reached mixedRequests).value? "A" = some 7 ∧
    (reached mixedRequests).value? "C" = none ∧
    (∃ d, ((reached mixedRequests).serve (.define "D" 0 {} true)).2 = .refused d) ∧
    reached (mixedRequests ++ [.define "D" 0 {} true, .close]) = reached mixedRequests ∧
    ∀ label, (reached mixedRequests).value? label =
      (reached [.define "B" (-1) {} false, .define "A" 7 {} false]).value? label := by
  have haccepted : accepted mixedRequests =
      [⟨"A", 5, none⟩, ⟨"B", -1, none⟩, ⟨"A", 7, none⟩] := rfl
  have hclosed : .close ∈ mixedRequests := by
    simp [mixedRequests]
  obtain ⟨hdefine, -, hvalue, hlabels, -, -, -, -, hstays, hagrees⟩ :=
    history_tells_table mixedRequests
  refine ⟨haccepted, ?_, ?_, ?_, (hdefine "D" 0 {} true).1.2 (Or.inl hclosed), hstays hclosed _,
    (hagrees _).1 (by decide)⟩
  · rw [hlabels, haccepted]
    rfl
  · rw [(hvalue "A").1, haccepted]
    rfl
  · rw [(hvalue "C").2, haccepted]
    decide

end LabelTable

end TwoPass
