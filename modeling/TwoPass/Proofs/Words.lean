import TwoPass.Source.Line

/-!
# Words and lines

Where the words of a line start can be told from the characters alone: at each one that is not blank
and has a blank, or nothing, before it. `Token.scan_eq` says that these are the tokens of the line,
in order. The lines of a text hold no breaks.
-/

namespace TwoPass

namespace Token

/-- Whether a word starts at an index. -/
def startsAt (cs : List Char) (i : Nat) : Bool :=
  (cs[i]?.any fun c => !Text.isBlank c) && (i == 0 || cs[i - 1]?.any Text.isBlank)

/-- The indices at which the words of a line start. -/
def starts (cs : List Char) : List Nat :=
  (List.range cs.length).filter (startsAt cs)

/-- The characters from an index up to the next blank. -/
def wordAt (cs : List Char) (i : Nat) : List Char :=
  (cs.drop i).takeWhile fun c => !Text.isBlank c

theorem of_mem_starts {cs : List Char} {i : Nat} (h : i ∈ starts cs) :
    i < cs.length ∧ startsAt cs i = true := by
  unfold starts at h
  rwa [List.mem_filter, List.mem_range] at h

theorem startsAt_append {cs : List Char} {i : Nat} (hi : i < cs.length)
    (h : startsAt cs i = true) (more : List Char) : startsAt (cs ++ more) i = true := by
  unfold startsAt at h ⊢
  rwa [List.getElem?_append_left hi, List.getElem?_append_left (by omega)]

section Between

variable {before word after : List Char}

theorem not_startsAt_of_blank {c : Char} (hc : Text.isBlank c = true) :
    startsAt (before ++ c :: after) before.length = false := by
  rw [startsAt, List.getElem?_append_right (Nat.le_refl _), Nat.sub_self, List.getElem?_cons_zero,
    Option.any_some, hc]
  rfl

theorem not_startsAt_inside {c d : Char} (hc : Text.isBlank c = false) :
    startsAt (before ++ c :: d :: after) (before.length + 1) = false := by
  have hprevious : (before ++ c :: d :: after)[before.length + 1 - 1]? = some c := by
    rw [Nat.add_sub_cancel, List.getElem?_append_right (Nat.le_refl _), Nat.sub_self]
    rfl
  rw [startsAt, hprevious, Option.any_some, hc, Bool.or_false]
  simp

theorem startsAt_of_not_blank {c : Char} (hc : Text.isBlank c = false)
    (hb : ∀ b, before.getLast? = some b → Text.isBlank b = true) :
    startsAt (before ++ c :: after) before.length = true := by
  have hhere : (before ++ c :: after)[before.length]? = some c := by
    rw [List.getElem?_append_right (Nat.le_refl _), Nat.sub_self]
    rfl
  rw [startsAt, hhere, Option.any_some, hc, Bool.not_false, Bool.true_and]
  cases hlast : before.getLast? with
  | none =>
    rw [List.getLast?_eq_none_iff.1 hlast]
    rfl
  | some b =>
    obtain ⟨init, rfl⟩ := List.getLast?_eq_some_iff.1 hlast
    have hprevious : (init ++ [b] ++ c :: after)[(init ++ [b]).length - 1]? = some b := by
      simp
    rw [hprevious, Option.any_some, hb b hlast, Bool.or_true]

theorem filter_startsAt_inside {c : Char} (hc : Text.isBlank c = false)
    (hw : ∀ d ∈ word, Text.isBlank d = false) :
    (List.range' (before.length + 1) word.length).filter (startsAt (before ++ c :: word ++ after)) =
      [] := by
  induction word generalizing before c with
  | nil => rfl
  | cons d word ih =>
    have hd : Text.isBlank d = false := hw d List.mem_cons_self
    have htail := @ih (before ++ [c]) d hd fun e he => hw e (List.mem_cons_of_mem d he)
    rw [List.length_append, List.length_singleton, List.append_assoc before [c],
      List.singleton_append] at htail
    have hinside : startsAt (before ++ c :: d :: word ++ after) (before.length + 1) = false := by
      rw [List.append_assoc, List.cons_append, List.cons_append]
      exact not_startsAt_inside hc
    rw [List.length_cons, List.range'_succ, List.filter_cons, hinside, if_neg Bool.false_ne_true]
    exact htail

-- only the first character of a word starts it
theorem filter_startsAt_word (hne : word ≠ []) (hw : ∀ d ∈ word, Text.isBlank d = false)
    (hb : ∀ b, before.getLast? = some b → Text.isBlank b = true) :
    (List.range' before.length word.length).filter (startsAt (before ++ word ++ after)) =
      [before.length] := by
  cases word with
  | nil => exact absurd rfl hne
  | cons c word =>
    have hc : Text.isBlank c = false := hw c List.mem_cons_self
    have hfirst : startsAt (before ++ c :: word ++ after) before.length = true := by
      rw [List.append_assoc, List.cons_append]
      exact startsAt_of_not_blank hc hb
    rw [List.length_cons, List.range'_succ, List.filter_cons, if_pos hfirst,
      filter_startsAt_inside hc fun d hd => hw d (List.mem_cons_of_mem c hd)]

theorem wordAt_between (hw : ∀ d ∈ word, Text.isBlank d = false)
    (ha : ∀ a, after.head? = some a → Text.isBlank a = true) :
    wordAt (before ++ word ++ after) before.length = word := by
  have hall : ∀ d ∈ word, (!Text.isBlank d) = true := by
    intro d hd
    rw [hw d hd]
    rfl
  rw [wordAt, List.append_assoc, List.drop_left, List.takeWhile_append_of_pos hall]
  cases after with
  | nil => rw [List.takeWhile_nil, List.append_nil]
  | cons a after =>
    rw [List.takeWhile_cons, ha a rfl, Bool.not_true, if_neg Bool.false_ne_true, List.append_nil]

/-- The words that start at the indices from `first` on, with their columns. -/
def wordsIn (cs : List Char) (first count : Nat) : List (Nat × List Char) :=
  ((List.range' first count).filter (startsAt cs)).map fun i => (i + 1, wordAt cs i)

theorem wordsIn_add (cs : List Char) (first m n : Nat) :
    wordsIn cs first (m + n) = wordsIn cs first m ++ wordsIn cs (first + m) n := by
  unfold wordsIn
  rw [← List.range'_append_1, List.filter_append, List.map_append]

theorem wordsIn_blank {c : Char} (hc : Text.isBlank c = true) :
    wordsIn (before ++ c :: after) before.length 1 = [] := by
  rw [wordsIn, List.range'_one, List.filter_cons_of_neg (by rw [not_startsAt_of_blank hc]; nofun)]
  rfl

theorem wordsIn_word (hw : ∀ d ∈ word, Text.isBlank d = false)
    (hb : ∀ b, before.getLast? = some b → Text.isBlank b = true)
    (ha : ∀ a, after.head? = some a → Text.isBlank a = true) :
    wordsIn (before ++ word ++ after) before.length word.length =
      if word.isEmpty then [] else [(before.length + 1, word)] := by
  cases hword : word with
  | nil => rfl
  | cons c rest =>
    rw [← hword, wordsIn, filter_startsAt_word (by rw [hword]; nofun) hw hb, List.map_singleton,
      wordAt_between hw ha, hword]
    rfl

end Between

/-- The scan from inside a line: `word` was read of the current word, and what stands before it ends
in a blank if there is any. -/
theorem wordsFrom_eq {before word rest : List Char}
    (hb : ∀ b, before.getLast? = some b → Text.isBlank b = true)
    (hw : ∀ c ∈ word, Text.isBlank c = false) :
    wordsFrom (before.length + word.length + 1) word.reverse rest =
      wordsIn (before ++ word ++ rest) before.length (word.length + rest.length) := by
  -- a blank moves what was read into `before`, any other character makes `word` longer
  induction rest generalizing before word with
  | nil =>
    have hword := @wordsIn_word before word [] hw hb (by simp)
    have hcolumn : before.length + word.length + 1 - word.length = before.length + 1 := by omega
    show wordsFrom _ _ [] = wordsIn _ before.length word.length
    rw [hword, wordsFrom, List.isEmpty_reverse, List.length_reverse, List.reverse_reverse, hcolumn]
  | cons c rest ih =>
    rw [wordsFrom]
    by_cases hc : Text.isBlank c = true
    · -- a blank ends the word that was being read, if there was one, and starts none
      have hword := @wordsIn_word before word (c :: rest) hw hb (by simpa using hc)
      have hblank := @wordsIn_blank (before ++ word) rest c hc
      have hnext := @ih (before ++ word ++ [c]) [] (by simpa using hc) (by simp)
      have hcount : word.length + (c :: rest).length = word.length + (1 + rest.length) := by
        rw [List.length_cons, Nat.add_comm rest.length]
      have hcolumn : before.length + word.length + 1 - word.length = before.length + 1 := by omega
      simp only [List.append_nil, List.append_assoc, List.singleton_append, List.length_append,
        List.length_singleton, List.length_nil, List.reverse_nil, Nat.zero_add, Nat.add_zero]
        at hword hblank hnext ⊢
      rw [if_pos hc, hcount, wordsIn_add, wordsIn_add, hword, hblank, List.nil_append,
        Nat.add_assoc before.length word.length 1, ← hnext, List.isEmpty_reverse,
        List.length_reverse, List.reverse_reverse, ← Nat.add_assoc, hcolumn]
      split <;> rfl
    · have hread : ∀ d ∈ word ++ [c], Text.isBlank d = false := by
        intro d hd
        rcases List.mem_append.1 hd with hd | hd
        · exact hw d hd
        · rw [List.mem_singleton.1 hd]
          simpa using hc
      have hmore := ih hb hread
      simp only [List.length_append, List.length_singleton, List.reverse_append,
        List.reverse_singleton, List.singleton_append, List.append_assoc, Nat.add_assoc] at hmore
      rw [if_neg hc, List.length_cons, List.append_assoc, Nat.add_comm rest.length 1]
      exact hmore

/-- The tokens of a line are its words, each with the column after its index. -/
theorem scan_eq (line : String) (number : Option Int) (file : Option String) :
    scan line number file = (starts line.toList).map fun i =>
      ⟨String.ofList (wordAt line.toList i), number, (i + 1 : Nat), file⟩ := by
  have hwords : wordsFrom 1 [] line.toList = wordsIn line.toList 0 line.toList.length := by
    have hfrom := @wordsFrom_eq [] [] line.toList nofun nofun
    simpa using hfrom
  rw [scan, hwords, wordsIn, List.map_map, starts, List.range_eq_range']
  rfl

section Row

variable {column : Nat} {word rest : List Char}

theorem wordsFrom_append (hw : ∀ c ∈ word, Text.isBlank c = false) (read : List Char) :
    wordsFrom column read (word ++ rest) =
      wordsFrom (column + word.length) (word.reverse ++ read) rest := by
  induction word generalizing column read with
  | nil => rfl
  | cons c word ih =>
    have hc : ¬ Text.isBlank c = true := by simp [hw c List.mem_cons_self]
    rw [List.cons_append, wordsFrom, if_neg hc, ih fun d hd => hw d (List.mem_cons_of_mem c hd),
      List.reverse_cons, List.append_assoc, List.length_cons, Nat.add_right_comm, Nat.add_assoc]
    rfl

theorem wordsFrom_word (hne : word ≠ []) (hw : ∀ c ∈ word, Text.isBlank c = false) :
    wordsFrom column [] word = [(column, word)] := by
  have hread := @wordsFrom_append column word [] hw []
  rw [List.append_nil, List.append_nil] at hread
  rw [hread, wordsFrom, List.isEmpty_reverse, if_neg (mt List.isEmpty_iff.1 hne),
    List.length_reverse, Nat.add_sub_cancel, List.reverse_reverse]

theorem wordsFrom_word_blank {b : Char} (hne : word ≠ [])
    (hw : ∀ c ∈ word, Text.isBlank c = false) (hb : Text.isBlank b = true) :
    wordsFrom column [] (word ++ b :: rest) =
      (column, word) :: wordsFrom (column + word.length + 1) [] rest := by
  rw [wordsFrom_append hw, List.append_nil, wordsFrom, if_pos hb, List.isEmpty_reverse,
    if_neg (mt List.isEmpty_iff.1 hne), List.length_reverse, Nat.add_sub_cancel,
    List.reverse_reverse]

end Row

end Token

namespace Text

variable {line rest : List Char}

theorem linesFrom_append_break (hl : ∀ c ∈ line, isBreak c = false) (read : List Char) :
    linesFrom read (line ++ '\n' :: rest) = (read.reverse ++ line) :: linesFrom [] rest := by
  induction line generalizing read with
  | nil =>
    rw [List.nil_append, List.append_nil, linesFrom]
    · rfl
    · nofun
  | cons c line ih =>
    have hc : isBreak c = false := hl c List.mem_cons_self
    have hreturn : c ≠ '\r' := by
      rintro rfl
      cases hc
    rw [List.cons_append, linesFrom, hc, if_neg Bool.false_ne_true,
      ih fun d hd => hl d (List.mem_cons_of_mem c hd), List.reverse_cons, List.append_assoc]
    · rfl
    · intro rest' hcr
      exact absurd hcr hreturn

/-- A text without a break is one line. -/
theorem linesFrom_of_not_break {read cs : List Char} (hne : read ≠ [] ∨ cs ≠ [])
    (hcs : ∀ c ∈ cs, isBreak c = false) : linesFrom read cs = [read.reverse ++ cs] := by
  induction cs generalizing read with
  | nil =>
    have hread : ¬ read.isEmpty = true := by simpa using hne
    rw [linesFrom, if_neg hread, List.append_nil]
  | cons c cs ih =>
    have hc : isBreak c = false := hcs c List.mem_cons_self
    have hreturn : c ≠ '\r' := by
      rintro rfl
      cases hc
    have hrest := @ih (c :: read) (Or.inl nofun) fun d hd => hcs d (List.mem_cons_of_mem c hd)
    rw [linesFrom, hc, if_neg Bool.false_ne_true, hrest, List.reverse_cons, List.append_assoc]
    · rfl
    · intro rest hcr
      exact absurd hcr hreturn

theorem not_break_of_not_blank {c : Char} (h : isBlank c = false) : isBreak c = false := by
  unfold isBlank at h
  unfold isBreak
  simp only [Bool.or_eq_false_iff, Bool.and_eq_false_iff, decide_eq_false_iff_not,
    beq_eq_false_iff_ne] at h ⊢
  omega

theorem linesFrom_rows {rows : List (List Char)}
    (hr : ∀ row ∈ rows, ∀ c ∈ row, isBreak c = false) :
    linesFrom [] (rows.flatMap (· ++ ['\n'])) = rows := by
  induction rows with
  | nil => rfl
  | cons row rows ih =>
    rw [List.flatMap_cons, List.append_assoc, List.singleton_append,
      linesFrom_append_break (hr row List.mem_cons_self),
      ih fun row' hrow' => hr row' (List.mem_cons_of_mem row hrow')]
    rfl

theorem toList_join_lines (lines : List String) :
    (String.join (lines.map (· ++ "\n"))).toList =
      (lines.map String.toList).flatMap (· ++ ['\n']) := by
  rw [String.toList_join, List.flatMap_map, List.flatMap_map]
  apply congrArg (lines.flatMap ·)
  funext line
  exact String.toList_append

/-- Lines that are joined by breaks are read again. -/
theorem lines_join {rows : List String} (h : ∀ row ∈ rows, ∀ c ∈ row.toList, isBreak c = false) :
    lines (String.join (rows.map (· ++ "\n"))) = rows := by
  rw [lines, toList_join_lines, linesFrom_rows (List.forall_mem_map.2 h), List.map_map]
  simp

theorem not_break_of_mem_linesFrom {read cs : List Char} (hr : ∀ c ∈ read, isBreak c = false)
    (hl : line ∈ linesFrom read cs) : ∀ c ∈ line, isBreak c = false := by
  fun_induction linesFrom read cs with
  | case1 read hempty => cases hl
  | case2 read hne =>
    rw [List.mem_singleton.1 hl]
    simpa using hr
  | case3 read rest ih =>
    rcases List.mem_cons.1 hl with rfl | hl
    · simpa using hr
    · exact ih nofun hl
  | case4 read c rest _ hc ih =>
    rcases List.mem_cons.1 hl with rfl | hl
    · simpa using hr
    · exact ih nofun hl
  | case5 read c rest _ hc ih =>
    refine ih ?_ hl
    intro d hd
    rcases List.mem_cons.1 hd with rfl | hd
    · simpa using hc
    · exact hr d hd

end Text

end TwoPass
