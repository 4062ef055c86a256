import TwoPass.Command.Run
import TwoPass.Proofs.Paths

/-!
# Deliveries

A delivery writes one file or none, and one that fails changes nothing. So a row of deliveries
changes the files that it is to write and no others, wherever it breaks off. If it does not break
off, every file holds what was delivered to it last. A session that is not verbose says nothing on
the standard error meanwhile.
-/

namespace TwoPass.Command

/-- The file that a delivery writes, if it writes one, and the text to be written. -/
def Delivery.writes? (a : Assembly) : Delivery → Option (Path × String)
  | .words => none
  | .object path => some (path, a.objectFile)
  | .listing path => some (path, a.listing)
  | .symbols path => some (path, a.symbolFile)

/-- What a delivery can do to the files. -/
inductive Delivery.Does (a : Assembly) (tree : FileTree) (d : Delivery) (r : Delivered) : Prop
  | nothing : d.writes? a = none → r.trouble = none → r.tree = tree → Does a tree d r
  | file {p : Path} {text : String} : d.writes? a = some (p, text) → tree.Usable p →
      r.trouble = none → r.tree = tree.put (tree.resolve p) text.toUTF8 → Does a tree d r
  | fails {t : Trouble} : r.trouble = some t → r.tree = tree → Does a tree d r

/-- Deliveries to paths that are read again from their texts. -/
def WellAddressed (a : Assembly) (ds : List Delivery) : Prop :=
  ∀ d ∈ ds, ∀ p text, d.writes? a = some (p, text) → p.WellFormed

variable {session : Session} {a : Assembly}

theorem ofWriting_write (hlast : session.last = some a) (tree : FileTree) {path : Path}
    (hpath : path.WellFormed) (text noted : Assembly → String) (announced : String) {d : Delivery}
    (hd : d.writes? a = some (path, text a)) :
    d.Does a tree (.ofWriting session.verbose announced
      (session.write tree (Path.ofString path.text) text noted)) := by
  rw [Path.ofString_text hpath]
  unfold Session.write Session.result
  rw [hlast]
  dsimp only
  cases hwrite : tree.write path (text a).toUTF8 with
  | error e => exact .fails rfl rfl
  | ok tree' =>
    obtain ⟨husable, rfl⟩ := FileTree.write_eq_ok_iff.1 hwrite
    exact .file hd husable rfl rfl

theorem deliver_does (hlast : session.last = some a) (tree : FileTree) {d : Delivery}
    (hd : ∀ p text, d.writes? a = some (p, text) → p.WellFormed) :
    d.Does a tree (deliver session a tree d) := by
  cases d with
  | words => exact .nothing rfl rfl rfl
  | object path =>
    unfold deliver Session.writeObject
    exact ofWriting_write hlast tree (hd path _ rfl) Assembly.objectFile _ _ rfl
  | listing path =>
    unfold deliver Session.writeListing
    exact ofWriting_write hlast tree (hd path _ rfl) Assembly.listing _ _ rfl
  | symbols path =>
    unfold deliver Session.writeSymbols
    exact ofWriting_write hlast tree (hd path _ rfl) Assembly.symbolFile _ _ rfl

theorem sameDirectories_deliver (hlast : session.last = some a) (tree : FileTree) {d : Delivery}
    (hd : ∀ p text, d.writes? a = some (p, text) → p.WellFormed) :
    tree.SameDirectories (deliver session a tree d).tree := by
  cases deliver_does hlast tree hd with
  | nothing _ _ htree =>
    rw [htree]
    exact .refl tree
  | file _ _ _ htree =>
    rw [htree]
    exact tree.sameDirectories_put _ _
  | fails _ htree =>
    rw [htree]
    exact .refl tree

theorem file?_deliver (hlast : session.last = some a) (tree : FileTree) {d : Delivery}
    (hd : ∀ p text, d.writes? a = some (p, text) → p.WellFormed) {place : Place}
    (hplace : ∀ p text, d.writes? a = some (p, text) → tree.Usable p → tree.resolve p ≠ place) :
    (deliver session a tree d).tree.file? place = tree.file? place := by
  cases deliver_does hlast tree hd with
  | nothing _ _ htree => rw [htree]
  | @file p text hwrites husable _ htree =>
    rw [htree, FileTree.file?_put, if_neg]
    exact (hplace p text hwrites husable).symm
  | fails _ htree => rw [htree]

theorem deliverAll_cons_of_none {tree : FileTree} {d : Delivery} (ds : List Delivery)
    (h : (deliver session a tree d).trouble = none) :
    (deliverAll session a tree (d :: ds)).tree =
      (deliverAll session a (deliver session a tree d).tree ds).tree ∧
    (deliverAll session a tree (d :: ds)).trouble =
      (deliverAll session a (deliver session a tree d).tree ds).trouble ∧
    (deliverAll session a tree (d :: ds)).outputs = (deliver session a tree d).outputs ++
      (deliverAll session a (deliver session a tree d).tree ds).outputs := by
  rw [deliverAll, h]
  exact ⟨rfl, rfl, rfl⟩

theorem deliverAll_cons_of_some {tree : FileTree} {d : Delivery} (ds : List Delivery) {t : Trouble}
    (h : (deliver session a tree d).trouble = some t) :
    deliverAll session a tree (d :: ds) = deliver session a tree d := by
  rw [deliverAll, h]

theorem sameDirectories_deliverAll (hlast : session.last = some a) (tree : FileTree)
    {ds : List Delivery} (hds : WellAddressed a ds) :
    tree.SameDirectories (deliverAll session a tree ds).tree := by
  induction ds generalizing tree with
  | nil => exact .refl tree
  | cons d ds ih =>
    have hfirst := sameDirectories_deliver hlast tree (hds d List.mem_cons_self)
    cases htrouble : (deliver session a tree d).trouble with
    | some t =>
      rw [deliverAll_cons_of_some ds htrouble]
      exact hfirst
    | none =>
      rw [(deliverAll_cons_of_none ds htrouble).1]
      exact hfirst.trans (ih _ fun d' hd' => hds d' (List.mem_cons_of_mem d hd'))

/-- Deliveries change no file but those that one of them is to write. -/
theorem file?_deliverAll (hlast : session.last = some a) (tree : FileTree) {ds : List Delivery}
    (hds : WellAddressed a ds) {place : Place}
    (hplace : ∀ d ∈ ds, ∀ p text, d.writes? a = some (p, text) → tree.Usable p →
      tree.resolve p ≠ place) :
    (deliverAll session a tree ds).tree.file? place = tree.file? place := by
  induction ds generalizing tree with
  | nil => rfl
  | cons d ds ih =>
    have hd := hds d List.mem_cons_self
    have hfirst := file?_deliver hlast tree hd (hplace d List.mem_cons_self)
    cases htrouble : (deliver session a tree d).trouble with
    | some t =>
      rw [deliverAll_cons_of_some ds htrouble]
      exact hfirst
    | none =>
      -- the directories are the same after it, so the other paths still lead where they led
      have hsame := sameDirectories_deliver hlast tree hd
      rw [(deliverAll_cons_of_none ds htrouble).1, ← hfirst]
      apply ih _ fun d' hd' => hds d' (List.mem_cons_of_mem d hd')
      intro d' hd' p text hwrites husable
      rw [hsame.resolve]
      exact hplace d' (List.mem_cons_of_mem d hd') p text hwrites (hsame.symm.usable husable)

/-- Where nothing breaks off, a file holds what is delivered to it last. -/
theorem deliverAll_delivers (hlast : session.last = some a) {tree : FileTree}
    {before after : List Delivery} {d : Delivery} {p : Path} {text : String}
    (hds : WellAddressed a (before ++ d :: after))
    (htrouble : (deliverAll session a tree (before ++ d :: after)).trouble = none)
    (hd : d.writes? a = some (p, text))
    (hlater : ∀ d' ∈ after, ∀ p' text', d'.writes? a = some (p', text') →
      tree.resolve p' ≠ tree.resolve p) :
    (deliverAll session a tree (before ++ d :: after)).tree.read p = .ok text.toUTF8 := by
  induction before generalizing tree with
  | nil =>
    rw [List.nil_append] at hds htrouble ⊢
    have hafter : WellAddressed a after := fun d' hd' => hds d' (List.mem_cons_of_mem d hd')
    cases deliver_does hlast tree (hds d List.mem_cons_self) with
    | nothing hwrites =>
      rw [hd] at hwrites
      cases hwrites
    | fails hfails =>
      rw [deliverAll_cons_of_some after hfails, hfails] at htrouble
      cases htrouble
    | file hwrites husable hnone htree =>
      rw [hd] at hwrites
      cases hwrites
      rw [(deliverAll_cons_of_none after hnone).1, htree]
      have hput := tree.sameDirectories_put (tree.resolve p) text.toUTF8
      have hall := hput.trans (sameDirectories_deliverAll hlast _ hafter)
      rw [FileTree.read_eq_ok_iff]
      refine ⟨hall.usable husable, ?_⟩
      -- no later delivery goes to this place, so what was put there stays
      rw [hall.resolve, file?_deliverAll hlast _ hafter, FileTree.file?_put, if_pos rfl]
      intro d' hd' p' text' hwrites' _
      rw [hput.resolve]
      exact hlater d' hd' p' text' hwrites'
  | cons first before ih =>
    rw [List.cons_append] at hds htrouble ⊢
    have hsame := sameDirectories_deliver hlast tree (hds first List.mem_cons_self)
    cases hfirst : (deliver session a tree first).trouble with
    | some t =>
      rw [deliverAll_cons_of_some _ hfirst, hfirst] at htrouble
      cases htrouble
    | none =>
      obtain ⟨htree, htrouble', -⟩ := deliverAll_cons_of_none (before ++ d :: after) hfirst
      rw [htree]
      rw [htrouble'] at htrouble
      apply ih (fun d' hd' => hds d' (List.mem_cons_of_mem first hd')) htrouble
      intro d' hd' p' text' hwrites'
      rw [hsame.resolve, hsame.resolve]
      exact hlater d' hd' p' text' hwrites'

section Quiet

theorem standardError_append (xs ys : List Output) :
    standardError (xs ++ ys) = standardError xs ++ standardError ys := by
  unfold standardError
  rw [List.filterMap_append, String.join_append]

theorem ofWriting_quiet (announced : String) (written : FileTree × Reply Unit) :
    (Delivered.ofWriting false announced written).outputs = [] := by
  obtain ⟨tree, reply⟩ := written
  unfold Delivered.ofWriting
  cases hresult : reply.result with
  | error f => simp only [hresult]; rfl
  | ok _ => simp only [hresult]; rfl

variable (hquiet : session.verbose = false)

include hquiet

theorem standardError_deliver (a : Assembly) (tree : FileTree) (d : Delivery) :
    standardError (deliver session a tree d).outputs = "" := by
  cases d with
  | words =>
    show String.join ((a.cells.map fun c => tell (Assembly.printedWord c)).filterMap _) = ""
    rw [List.filterMap_map, List.filterMap_eq_nil_iff.2]
    · rfl
    · intro c _
      rfl
  | object path | listing path | symbols path =>
    unfold deliver
    rw [hquiet, ofWriting_quiet]
    rfl

theorem standardError_deliverAll (a : Assembly) (tree : FileTree) (ds : List Delivery) :
    standardError (deliverAll session a tree ds).outputs = "" := by
  induction ds generalizing tree with
  | nil => rfl
  | cons d ds ih =>
    have hfirst := standardError_deliver hquiet a tree d
    cases htrouble : (deliver session a tree d).trouble with
    | some t =>
      rw [deliverAll_cons_of_some ds htrouble]
      exact hfirst
    | none =>
      rw [(deliverAll_cons_of_none ds htrouble).2.2, standardError_append, hfirst, ih]
      rfl

end Quiet

end TwoPass.Command
