import TwoPass.Files.Tree

/-!
# Paths

A path that was read from a text has names that are no separator, not empty and no dot, and it is
read again from its own text. A path that can be followed leads to the place that its text names,
and following it asks for directories alone. So a file that is written bears on no other: it changes
what is read through the paths that name its place, and through no others.
-/

namespace TwoPass

namespace Path

/-- A text that stands for one name on a path. -/
structure IsName (name : String) : Prop where
  ne_empty : name ≠ ""
  ne_dot : name ≠ "."
  unbroken : '/' ∉ name.toList

structure WellFormed (p : Path) : Prop where
  root : p.root = "" ∨ p.root = "/" ∨ p.root = "//"
  parts : ∀ name ∈ p.parts, IsName name

theorem piecesFrom_eq (piece cs : List Char) :
    piecesFrom piece cs = (cs.splitOn '/').modifyHead (piece.reverse ++ ·) := by
  unfold List.splitOn
  induction cs generalizing piece with
  | nil => simp [piecesFrom]
  | cons c cs ih =>
    rw [piecesFrom, List.splitOnP_cons_eq_if_modifyHead, ih, ih]
    split
    · -- a separator ends the piece, and the next one starts with nothing
      rw [List.modifyHead_cons, List.append_nil]
      show _ :: (List.splitOnP _ cs).modifyHead id = _
      rw [List.modifyHead_id]
      rfl
    · rw [List.modifyHead_modifyHead, List.reverse_cons]
      simp only [Function.comp_def, List.append_assoc, List.singleton_append]

theorem pieces_eq (s : String) : pieces s = (s.toList.splitOn '/').map String.ofList := by
  unfold pieces
  rw [piecesFrom_eq]
  show ((s.toList.splitOn '/').modifyHead id).map _ = _
  rw [List.modifyHead_id]
  rfl

theorem pieces_separator (s : String) : pieces ("/" ++ s) = "" :: pieces s := by
  unfold pieces
  rw [String.toList_append]
  rfl

theorem unbroken_of_mem_piecesFrom {piece cs p : List Char} (hpiece : '/' ∉ piece)
    (h : p ∈ piecesFrom piece cs) : '/' ∉ p := by
  induction cs generalizing piece with
  | nil =>
    rw [List.mem_singleton.1 h, List.mem_reverse]
    exact hpiece
  | cons c cs ih =>
    rw [piecesFrom] at h
    split at h
    · rcases List.mem_cons.1 h with rfl | h
      · rwa [List.mem_reverse]
      · exact ih List.not_mem_nil h
    · rename_i hc
      apply ih _ h
      rw [List.mem_cons, not_or]
      exact ⟨fun heq => hc (by rw [← heq]; rfl), hpiece⟩

theorem wellFormed_ofString (s : String) : (ofString s).WellFormed := by
  refine ⟨?_, ?_⟩
  · unfold ofString
    dsimp only
    split <;> simp
  · intro name hname
    obtain ⟨hmem, hkeep⟩ := List.mem_filter.1 hname
    obtain ⟨piece, hpiece, rfl⟩ := List.mem_map.1 hmem
    simp only [Bool.and_eq_true, bne_iff_ne] at hkeep
    refine ⟨hkeep.1, hkeep.2, ?_⟩
    rw [String.toList_ofList]
    exact unbroken_of_mem_piecesFrom List.not_mem_nil hpiece

/-- A suffix is put behind characters of the name. -/
theorem exists_stem (suffix name : String) :
    ∃ stem, changeSuffix suffix name = stem ++ suffix ∧ ∀ c ∈ stem.toList, c ∈ name.toList := by
  unfold changeSuffix
  dsimp only
  split
  · rename_i dot stem hstem
    split
    · exact ⟨name, rfl, fun c hc => hc⟩
    · refine ⟨_, rfl, ?_⟩
      intro c hc
      rw [String.toList_ofList, List.mem_reverse] at hc
      have hdropped : c ∈ name.toList.reverse.dropWhile (· != '.') := by
        rw [hstem]
        exact List.mem_cons_of_mem dot hc
      exact List.mem_reverse.1 ((List.dropWhile_sublist _).subset hdropped)
  · exact ⟨name, rfl, fun c hc => hc⟩

theorem isName_changeSuffix {name : String} (h : IsName name) :
    IsName (changeSuffix ".obj" name) := by
  obtain ⟨stem, hstem, hchars⟩ := exists_stem ".obj" name
  have hlength : (changeSuffix ".obj" name).toList.length = stem.toList.length + 4 := by
    rw [hstem, String.toList_append, List.length_append]
    rfl
  refine ⟨?_, ?_, ?_⟩
  · intro hempty
    rw [hempty] at hlength
    change 0 = _ at hlength
    omega
  · intro hdot
    rw [hdot] at hlength
    change 1 = _ at hlength
    omega
  · rw [hstem, String.toList_append, List.mem_append, not_or]
    exact ⟨fun hc => h.unbroken (hchars _ hc), by decide⟩

theorem wellFormed_withSuffix {p : Path} (h : p.WellFormed) : (p.withSuffix ".obj").WellFormed := by
  refine ⟨h.root, ?_⟩
  intro name hname
  rcases List.mem_append.1 hname with hname | hname
  · exact h.parts name (List.dropLast_subset _ hname)
  · rw [Option.mem_toList, Option.map_eq_some_iff] at hname
    obtain ⟨last, hlast, rfl⟩ := hname
    exact isName_changeSuffix (h.parts last (List.mem_of_getLast? hlast))

section Names

variable {names : List String} (h : ∀ name ∈ names, IsName name)

include h

theorem pieces_intercalate :
    (pieces ("/".intercalate names)).filter (fun p => p != "" && p != ".") = names := by
  cases hnames : names with
  | nil => rfl
  | cons name rest =>
    have hsplit : ("/".intercalate names).toList.splitOn '/' = names.map String.toList := by
      rw [String.toList_intercalate]
      apply List.splitOn_intercalate
      · intro l hl
        obtain ⟨n, hn, rfl⟩ := List.mem_map.1 hl
        exact (h n hn).unbroken
      · rw [hnames]
        nofun
    have hkeep : ∀ n ∈ names, (n != "" && n != ".") = true := by
      intro n hn
      simp [(h n hn).ne_empty, (h n hn).ne_dot]
    have hpieces : pieces ("/".intercalate names) = names := by
      rw [pieces_eq, hsplit, List.map_map]
      exact (List.map_congr_left fun n _ => String.ofList_toList).trans (List.map_id names)
    rw [← hnames, hpieces]
    exact List.filter_eq_self.2 hkeep

theorem takeWhile_intercalate :
    ("/".intercalate names).toList.takeWhile (· == '/') = [] := by
  rw [String.toList_intercalate]
  cases names with
  | nil => rfl
  | cons name rest =>
    have hname := h name List.mem_cons_self
    cases hchars : name.toList with
    | nil => exact absurd (String.toList_eq_nil_iff.1 hchars) hname.ne_empty
    | cons c cs =>
      have hc : (c == '/') = false := by
        have hmem := hname.unbroken
        rw [hchars, List.mem_cons, not_or] at hmem
        simpa using Ne.symm hmem.1
      rw [List.map_cons, hchars]
      cases rest with
      | nil => simp [hc]
      | cons next rest => simp [List.intercalate_cons_cons, hc]

end Names

/-- A path is read again from its text. -/
theorem ofString_text {p : Path} (h : p.WellFormed) : ofString p.text = p := by
  obtain ⟨root, parts⟩ := p
  have hparts := pieces_intercalate h.parts
  have hnone := takeWhile_intercalate h.parts
  have hroot : root = "" ∨ root = "/" ∨ root = "//" := h.root
  rcases hroot with rfl | rfl | rfl
  · cases parts with
    | nil => rfl
    | cons name rest =>
      show ofString ("" ++ "/".intercalate (name :: rest)) = _
      unfold ofString
      rw [String.empty_append, hparts, hnone]
      rfl
  · -- the root is the one separator before the names
    show ofString ("/" ++ "/".intercalate parts) = _
    have hone : ("/" ++ "/".intercalate parts).toList.takeWhile (· == '/') = ['/'] := by
      rw [String.toList_append]
      exact congrArg ('/' :: ·) hnone
    unfold ofString
    rw [hone, pieces_separator]
    show (⟨"/", (pieces ("/".intercalate parts)).filter _⟩ : Path) = _
    rw [hparts]
  · show ofString ("//" ++ "/".intercalate parts) = _
    have htwo : ("//" ++ "/".intercalate parts).toList.takeWhile (· == '/') = ['/', '/'] := by
      rw [String.toList_append]
      exact congrArg (fun cs => '/' :: '/' :: cs) hnone
    have hpieces : pieces ("//" ++ "/".intercalate parts) =
        "" :: "" :: pieces ("/".intercalate parts) := by
      rw [← pieces_separator, ← pieces_separator, ← String.append_assoc]
      rfl
    unfold ofString
    rw [htwo, hpieces]
    show (⟨"//", (pieces ("/".intercalate parts)).filter _⟩ : Path) = _
    rw [hparts]

end Path

namespace FileTree

/-- Trees with the same directories. The files may differ. -/
structure SameDirectories (t t' : FileTree) : Prop where
  current : t'.current = t.current
  directories : t'.directories = t.directories

/-- A path that leads to a place where a file can stand. -/
structure Usable (t : FileTree) (p : Path) : Prop where
  located : t.locate p = .ok (t.resolve p)
  notDirectory : t.isDirectory (t.resolve p) = false

theorem SameDirectories.refl (t : FileTree) : t.SameDirectories t :=
  ⟨rfl, rfl⟩

theorem SameDirectories.trans {t t' t'' : FileTree} (h : t.SameDirectories t')
    (h' : t'.SameDirectories t'') : t.SameDirectories t'' :=
  ⟨h'.current.trans h.current, h'.directories.trans h.directories⟩

theorem SameDirectories.symm {t t' : FileTree} (h : t.SameDirectories t') :
    t'.SameDirectories t :=
  ⟨h.current.symm, h.directories.symm⟩

theorem sameDirectories_put (t : FileTree) (place : Place) (bytes : ByteArray) :
    t.SameDirectories (t.put place bytes) :=
  ⟨rfl, rfl⟩

theorem follow_cons_eq_ok_iff {t : FileTree} {place target : Place} {name : String}
    {rest : List String} :
    t.follow place (name :: rest) = .ok target ↔
      t.isDirectory place = true ∧ name.utf8ByteSize ≤ maxNameBytes ∧
        t.follow (step place name) rest = .ok target := by
  rw [follow, entry?]
  cases t.isDirectory place with
  | true =>
    by_cases hlong : maxNameBytes < name.utf8ByteSize
    · simp [hlong, Nat.not_le.2 hlong]
    · simp [hlong, Nat.not_lt.1 hlong]
  | false => cases (t.file? place).isSome <;> simp

theorem foldl_of_follow {t : FileTree} {place target : Place} {names : List String}
    (h : t.follow place names = .ok target) : target = names.foldl step place := by
  induction names generalizing place with
  | nil => exact (Except.ok.inj h).symm
  | cons name rest ih => exact ih (follow_cons_eq_ok_iff.1 h).2.2

/-- A path that can be followed leads where its text says. -/
theorem resolve_of_locate {t : FileTree} {p : Path} {place : Place} (h : t.locate p = .ok place) :
    place = t.resolve p := by
  unfold locate walk at h
  split at h
  · cases h
  · split at h
    · cases h
    · rename_i hwalk
      cases h
      split at hwalk
      · cases hwalk
      · exact foldl_of_follow hwalk

namespace SameDirectories

variable {t t' : FileTree} (h : t.SameDirectories t')

include h

theorem isDirectory (place : Place) : t'.isDirectory place = t.isDirectory place := by
  unfold FileTree.isDirectory
  rw [h.current, h.directories]

theorem resolve (p : Path) : t'.resolve p = t.resolve p := by
  unfold FileTree.resolve start
  rw [h.current]

-- a file on the way bears on why a path cannot be followed, and not on whether it can
theorem follow {place target : Place} {names : List String}
    (hf : t.follow place names = .ok target) : t'.follow place names = .ok target := by
  induction names generalizing place with
  | nil => exact hf
  | cons name rest ih =>
    rw [follow_cons_eq_ok_iff] at hf ⊢
    exact ⟨(h.isDirectory place).trans hf.1, hf.2.1, ih hf.2.2⟩

theorem locate {p : Path} {place : Place} (hp : t.locate p = .ok place) :
    t'.locate p = .ok place := by
  unfold FileTree.locate walk start at hp ⊢
  rw [h.current]
  split at hp
  · cases hp
  · rename_i hnul
    rw [if_neg hnul]
    split at hp
    · cases hp
    · rename_i hwalk
      split at hwalk
      · cases hwalk
      · rename_i hlong
        rw [if_neg hlong, h.follow hwalk]
        exact hp

theorem usable {p : Path} (hp : t.Usable p) : t'.Usable p := by
  refine ⟨?_, ?_⟩
  · rw [h.resolve]
    exact h.locate hp.located
  · rw [h.resolve, h.isDirectory]
    exact hp.notDirectory

end SameDirectories

section Access

variable {t t' : FileTree} {p : Path} {bytes : ByteArray}

theorem read_eq_ok_iff :
    t.read p = .ok bytes ↔ t.Usable p ∧ t.file? (t.resolve p) = some bytes := by
  constructor
  · intro h
    unfold read at h
    split at h
    · cases h
    · rename_i place hplace
      obtain rfl := resolve_of_locate hplace
      split at h
      · cases h
      · rename_i hdir
        split at h
        · rename_i content hfile
          cases h
          exact ⟨⟨hplace, by simpa using hdir⟩, hfile⟩
        · cases h
  · rintro ⟨husable, hfile⟩
    unfold read
    simp [husable.located, husable.notDirectory, hfile]

theorem write_eq_ok_iff :
    t.write p bytes = .ok t' ↔ t.Usable p ∧ t' = t.put (t.resolve p) bytes := by
  constructor
  · intro h
    unfold write at h
    split at h
    · cases h
    · rename_i place hplace
      obtain rfl := resolve_of_locate hplace
      split at h
      · cases h
      · rename_i hdir
        cases h
        exact ⟨⟨hplace, by simpa using hdir⟩, rfl⟩
  · rintro ⟨husable, rfl⟩
    unfold write
    simp [husable.located, husable.notDirectory]

end Access

end FileTree

end TwoPass
