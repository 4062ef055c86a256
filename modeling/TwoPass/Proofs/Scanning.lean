import TwoPass.Proofs.CodeLines

/-!
# Scanning a source text

Scanning loses nothing of a source text, adds nothing and moves nothing. The text is cut into lines
at its breaks, and a line is kept with its number and its text if it has a word before its comment.
The tokens of a line are slices of it as it was written, a comment included; every character before
the comment that is not blank is in exactly one of them, and nothing of the comment is in any.
-/

namespace TwoPass

namespace Text

/-- What can stand between two lines: a carriage return with a line feed, or any one character that
ends a line. -/
def IsLineBreak (b : List Char) : Prop :=
  b = ['\r', '\n'] ∨ ∃ c, isBreak c = true ∧ b = [c]

/-- Characters and the lines that they are cut into. A line holds no break, a carriage return takes
the line feed behind it along, and a break at the very end opens no further line. -/
inductive Cut : List Char → List (List Char) → Prop
  | nil : Cut [] []
  | last (line : List Char) : line ≠ [] → (∀ c ∈ line, isBreak c = false) → Cut line [line]
  | cons (line b : List Char) {rest : List Char} {lines : List (List Char)} :
      (∀ c ∈ line, isBreak c = false) → IsLineBreak b →
      (b = ['\r'] → rest.head? ≠ some '\n') → Cut rest lines →
      Cut (line ++ b ++ rest) (line :: lines)

theorem cut_linesFrom {read cs : List Char} (hr : ∀ c ∈ read, isBreak c = false) :
    Cut (read.reverse ++ cs) (linesFrom read cs) := by
  fun_induction linesFrom read cs with
  | case1 read hempty =>
    rw [List.isEmpty_iff.1 hempty]
    exact .nil
  | case2 read hne =>
    rw [List.append_nil]
    exact .last _ (by simpa using hne) (by simpa using hr)
  | case3 read rest ih =>
    have hrest := ih (List.forall_mem_nil _)
    show Cut (read.reverse ++ (['\r', '\n'] ++ rest)) _
    rw [← List.append_assoc]
    refine .cons _ _ (by simpa using hr) (Or.inl rfl) ?_ hrest
    intro hreturn
    cases hreturn
  | case4 read c rest hpair hc ih =>
    have hrest := ih (List.forall_mem_nil _)
    show Cut (read.reverse ++ ([c] ++ rest)) _
    rw [← List.append_assoc]
    refine .cons _ _ (by simpa using hr) (Or.inr ⟨c, hc, rfl⟩) ?_ hrest
    -- a carriage return before a line feed was taken by the case above
    intro hreturn hfeed
    obtain ⟨rest', rfl⟩ := List.head?_eq_some_iff.1 hfeed
    exact hpair rest' (List.singleton_inj.1 hreturn) rfl
  | case5 read c rest hpair hc ih =>
    have hmore : ∀ d ∈ c :: read, isBreak d = false :=
      List.forall_mem_cons.2 ⟨Bool.not_eq_true _ ▸ hc, hr⟩
    have hrest := ih hmore
    rwa [List.reverse_cons, List.append_assoc, List.singleton_append] at hrest

theorem cut_lines (text : String) : Cut text.toList ((lines text).map String.toList) := by
  have hcut := @cut_linesFrom [] text.toList (List.forall_mem_nil _)
  have hlines : (lines text).map String.toList = linesFrom [] text.toList := by
    rw [lines, List.map_map]
    exact (List.map_congr_left fun line _ => String.toList_ofList).trans (List.map_id _)
  rw [hlines]
  exact hcut

end Text

namespace Token

/-- There is a character at an index, and it is not blank. -/
def Filled (cs : List Char) (i : Nat) : Prop :=
  ∃ c, cs[i]? = some c ∧ Text.isBlank c = false

theorem lt_length_takeWhile_iff {p : Char → Bool} {cs : List Char} {k : Nat} :
    k < (cs.takeWhile p).length ↔ ∀ m ≤ k, ∃ c, cs[m]? = some c ∧ p c = true := by
  induction cs generalizing k with
  | nil =>
    refine ⟨nofun, fun h => ?_⟩
    obtain ⟨c, hc, -⟩ := h 0 (Nat.zero_le k)
    cases hc
  | cons d cs ih =>
    by_cases hd : p d = true
    · rw [List.takeWhile_cons, if_pos hd, List.length_cons]
      constructor
      · intro hk m hm
        cases m with
        | zero => exact ⟨d, rfl, hd⟩
        | succ m => exact ih.1 (by omega : m < _) m (Nat.le_refl m)
      · intro h
        cases k with
        | zero => omega
        | succ k =>
          have hk : k < (cs.takeWhile p).length := by
            apply ih.2
            intro m hm
            exact h (m + 1) (by omega)
          omega
    · rw [List.takeWhile_cons, if_neg hd]
      refine ⟨nofun, fun h => ?_⟩
      obtain ⟨c, hc, hp⟩ := h 0 (Nat.zero_le k)
      cases hc
      exact absurd hp hd

variable {cs : List Char} {i j : Nat}

/-- The word from an index on reaches as far as there is no blank and no end. -/
theorem lt_wordEnd_iff (hij : i ≤ j) :
    j < i + (wordAt cs i).length ↔ ∀ m, i ≤ m → m ≤ j → Filled cs m := by
  have hlength : j < i + (wordAt cs i).length ↔ j - i < (wordAt cs i).length := by omega
  rw [hlength, wordAt, lt_length_takeWhile_iff]
  simp only [List.getElem?_drop, Bool.not_eq_true']
  constructor
  · intro h m hm hmj
    have hat := h (m - i) (by omega)
    rwa [Nat.add_sub_cancel' hm] at hat
  · intro h m hm
    exact h (i + m) (by omega) (by omega)

theorem filled_of_lt_wordEnd (hij : i ≤ j) (h : j < i + (wordAt cs i).length) : Filled cs j :=
  (lt_wordEnd_iff hij).1 h j hij (Nat.le_refl j)

theorem not_filled_wordEnd : ¬ Filled cs (i + (wordAt cs i).length) := by
  intro h
  have hmore : i + (wordAt cs i).length < i + (wordAt cs i).length := by
    rw [lt_wordEnd_iff (Nat.le_add_right _ _)]
    intro m him hm
    by_cases hend : m = i + (wordAt cs i).length
    · rw [hend]
      exact h
    · exact filled_of_lt_wordEnd him (by omega)
  omega

theorem lt_wordEnd_of_filled (h : Filled cs i) : i < i + (wordAt cs i).length := by
  rw [lt_wordEnd_iff (Nat.le_refl i)]
  intro m him hm
  obtain rfl : m = i := by omega
  exact h

theorem startsAt_iff : startsAt cs i = true ↔ Filled cs i ∧ (i = 0 ∨ ¬ Filled cs (i - 1)) := by
  unfold startsAt Filled
  rw [Bool.and_eq_true_iff, Bool.or_eq_true_iff, beq_iff_eq, Option.any_eq_true]
  simp only [Bool.not_eq_true']
  refine and_congr_right ?_
  rintro ⟨c, hc, -⟩
  -- there is a character at the index, so there is one before it
  have hlt : i - 1 < cs.length := by
    have hi := (List.getElem?_eq_some_iff.1 hc).1
    omega
  rw [List.getElem?_eq_getElem hlt]
  simp

theorem mem_starts_iff : i ∈ starts cs ↔ Filled cs i ∧ (i = 0 ∨ ¬ Filled cs (i - 1)) := by
  rw [← startsAt_iff, starts, List.mem_filter, List.mem_range]
  refine and_iff_right_of_imp ?_
  intro h
  obtain ⟨⟨c, hc, -⟩, -⟩ := startsAt_iff.1 h
  exact (List.getElem?_eq_some_iff.1 hc).1

theorem wordAt_ne_nil (h : i ∈ starts cs) : wordAt cs i ≠ [] := by
  have hpositive := lt_wordEnd_of_filled (mem_starts_iff.1 h).1
  apply List.ne_nil_of_length_pos
  omega

/-- Every character that is not blank is in a word. -/
theorem exists_start_of_filled (h : Filled cs i) :
    ∃ j ∈ starts cs, j ≤ i ∧ i < j + (wordAt cs j).length := by
  induction i with
  | zero =>
    exact ⟨0, mem_starts_iff.2 ⟨h, Or.inl rfl⟩, Nat.le_refl 0, lt_wordEnd_of_filled h⟩
  | succ i ih =>
    by_cases hbefore : Filled cs i
    · -- the word that holds the character before goes on here
      obtain ⟨j, hj, hle, hlt⟩ := ih hbefore
      refine ⟨j, hj, by omega, ?_⟩
      rw [lt_wordEnd_iff (by omega)]
      intro m hjm hm
      by_cases hmi : m = i + 1
      · rw [hmi]
        exact h
      · exact filled_of_lt_wordEnd hjm (by omega)
    · exact ⟨i + 1, mem_starts_iff.2 ⟨h, Or.inr hbefore⟩, Nat.le_refl _, lt_wordEnd_of_filled h⟩

/-- No word starts inside another one. -/
theorem start_le_of_covered {j' : Nat} (hj' : j' ∈ starts cs)
    (hlt : i < j + (wordAt cs j).length) (hle' : j' ≤ i) : j' ≤ j := by
  obtain ⟨-, hbefore⟩ := mem_starts_iff.1 hj'
  by_contra hnot
  have hfilled : Filled cs (j' - 1) := filled_of_lt_wordEnd (i := j) (by omega) (by omega)
  exact hbefore.elim (by omega) (absurd hfilled)

/-- Whether a token covers an index of its line. -/
def Covers (t : Token) (i : Nat) : Prop :=
  t.column - 1 ≤ i ∧ i < t.column - 1 + t.text.toList.length

/-- A token stands at an index of a line: its text is what the line has there, with a blank or the
line's start before it, and a blank, a comment or the line's end behind it. -/
structure StandsAt (commentChars line : String) (t : Token) (i : Nat) : Prop where
  column : t.column = (i + 1 : Nat)
  ne_nil : t.text.toList ≠ []
  not_blank : ∀ c ∈ t.text.toList, Text.isBlank c = false
  slice : t.text.toList = (line.toList.drop i).take t.text.toList.length
  before : i = 0 ∨ ∃ c, line.toList[i - 1]? = some c ∧ Text.isBlank c = true
  behind : ∀ c, line.toList[i + t.text.toList.length]? = some c →
    Text.isBlank c = true ∨ c ∈ commentChars.toList

end Token

namespace CodeLine

/-- The index at which the comment of a line starts, or the line's length if it has none. -/
def commentStart (commentChars line : String) : Nat :=
  line.toList.findIdx fun c => c ∈ commentChars.toList

variable {commentChars line : String}

theorem toList_withoutComment :
    (withoutComment commentChars line).toList =
      line.toList.take (commentStart commentChars line) := by
  rw [withoutComment, String.toList_ofList, List.takeWhile_eq_take_findIdx_not, commentStart]
  congr 2
  funext c
  simp

theorem filled_withoutComment_iff {i : Nat} :
    Token.Filled (withoutComment commentChars line).toList i ↔
      i < commentStart commentChars line ∧ Token.Filled line.toList i := by
  unfold Token.Filled
  rw [toList_withoutComment]
  by_cases h : i < commentStart commentChars line
  · rw [List.getElem?_take_of_lt h]
    simp [h]
  · rw [List.getElem?_take, if_neg h]
    simp [h]

theorem mem_of_commentStart {c : Char}
    (h : line.toList[commentStart commentChars line]? = some c) : c ∈ commentChars.toList := by
  obtain ⟨hlt, rfl⟩ := List.getElem?_eq_some_iff.1 h
  have hcomment := @List.findIdx_getElem _ (fun c => decide (c ∈ commentChars.toList)) line.toList hlt
  exact of_decide_eq_true hcomment

/-- The token of the word that starts at an index of a line, before its comment. -/
def tokenAt (commentChars line : String) (number : Option Int) (file : Option String) (i : Nat) :
    Token :=
  ⟨String.ofList (Token.wordAt (withoutComment commentChars line).toList i), number, (i + 1 : Nat),
    file⟩

section Tokens

variable (number : Option Int) (file : Option String) {i : Nat}

theorem covers_tokenAt_iff {m : Nat} :
    (tokenAt commentChars line number file i).Covers m ↔
      i ≤ m ∧ m < i + (Token.wordAt (withoutComment commentChars line).toList i).length := by
  unfold Token.Covers tokenAt
  rw [String.toList_ofList]
  dsimp only
  omega

theorem slice_wordAt :
    Token.wordAt (withoutComment commentChars line).toList i =
      (line.toList.drop i).take
        (Token.wordAt (withoutComment commentChars line).toList i).length := by
  apply List.prefix_iff_eq_take.1
  apply (List.takeWhile_prefix _).trans
  rw [toList_withoutComment, List.drop_take]
  exact List.take_prefix _ _

/-- A word that starts before the comment ends there, or at a blank, or with the line. -/
theorem standsAt_tokenAt (hi : i ∈ Token.starts (withoutComment commentChars line).toList) :
    (tokenAt commentChars line number file i).StandsAt commentChars line i := by
  obtain ⟨hfilled, hbefore⟩ := Token.mem_starts_iff.1 hi
  obtain ⟨hcode, c, hc, -⟩ := filled_withoutComment_iff.1 hfilled
  have hlength : i < line.toList.length := (List.getElem?_eq_some_iff.1 hc).1
  have hpositive := Token.lt_wordEnd_of_filled hfilled
  refine ⟨rfl, ?_, ?_, ?_, ?_, ?_⟩
  · show (String.ofList _).toList ≠ []
    rw [String.toList_ofList]
    exact Token.wordAt_ne_nil hi
  · show ∀ c ∈ (String.ofList _).toList, _
    rw [String.toList_ofList]
    exact fun c => Token.not_blank_of_mem_wordAt
  · show (String.ofList _).toList = (line.toList.drop i).take (String.ofList _).toList.length
    rw [String.toList_ofList]
    exact slice_wordAt
  · refine hbefore.imp id fun hblank => ?_
    rw [filled_withoutComment_iff] at hblank
    refine ⟨_, List.getElem?_eq_getElem (by omega : i - 1 < line.toList.length), ?_⟩
    by_contra hnot
    exact hblank ⟨by omega, _, List.getElem?_eq_getElem _, Bool.not_eq_true _ ▸ hnot⟩
  · intro d hd
    have hwidth : (tokenAt commentChars line number file i).text.toList.length =
        (Token.wordAt (withoutComment commentChars line).toList i).length := by
      show (String.ofList _).toList.length = _
      rw [String.toList_ofList]
    rw [hwidth] at hd
    -- the last character of the word stands before the comment, and what follows does not go on
    have hlast : Token.Filled (withoutComment commentChars line).toList
        (i + (Token.wordAt (withoutComment commentChars line).toList i).length - 1) :=
      Token.filled_of_lt_wordEnd (i := i) (by omega) (by omega)
    have hinside := (filled_withoutComment_iff.1 hlast).1
    have hstop := @Token.not_filled_wordEnd (withoutComment commentChars line).toList i
    rw [filled_withoutComment_iff] at hstop
    generalize i + (Token.wordAt (withoutComment commentChars line).toList i).length = stop at *
    by_cases hcomment : stop = commentStart commentChars line
    · rw [hcomment] at hd
      exact Or.inr (mem_of_commentStart hd)
    · left
      by_contra hnot
      exact hstop ⟨by omega, d, hd, Bool.not_eq_true _ ▸ hnot⟩

theorem scan_eq_map_tokenAt :
    Token.scan (withoutComment commentChars line) number file =
      (Token.starts (withoutComment commentChars line).toList).map
        (tokenAt commentChars line number file) :=
  Token.scan_eq (withoutComment commentChars line) number file

theorem pairwise_column :
    ((Token.scan (withoutComment commentChars line) number file).map (·.column)).Pairwise
      (· < ·) := by
  rw [scan_eq_map_tokenAt, List.map_map, List.pairwise_map]
  have hstarts : (Token.starts (withoutComment commentChars line).toList).Pairwise (· < ·) :=
    List.pairwise_lt_range.filter _
  refine hstarts.imp ?_
  intro i j hij
  show ((i + 1 : Nat) : Int) < ((j + 1 : Nat) : Int)
  omega

/-- A character before the comment that is not blank is in exactly one token. -/
theorem existsUnique_covers (hcode : i < commentStart commentChars line)
    (hfilled : Token.Filled line.toList i) :
    ∃! t, t ∈ Token.scan (withoutComment commentChars line) number file ∧ t.Covers i := by
  rw [scan_eq_map_tokenAt]
  obtain ⟨j, hj, hle, hlt⟩ :=
    Token.exists_start_of_filled (filled_withoutComment_iff.2 ⟨hcode, hfilled⟩)
  refine ⟨_, ⟨List.mem_map_of_mem hj, (covers_tokenAt_iff number file).2 ⟨hle, hlt⟩⟩, ?_⟩
  rintro t ⟨ht, hcovers⟩
  obtain ⟨j', hj', rfl⟩ := List.mem_map.1 ht
  obtain ⟨hle', hlt'⟩ := (covers_tokenAt_iff number file).1 hcovers
  -- neither word starts inside the other
  have hge := Token.start_le_of_covered hj hlt' hle
  have hge' := Token.start_le_of_covered hj' hlt hle'
  rw [Nat.le_antisymm hge' hge]

theorem not_covers_comment (hcomment : commentStart commentChars line ≤ i) {t : Token}
    (ht : t ∈ Token.scan (withoutComment commentChars line) number file) : ¬ t.Covers i := by
  rw [scan_eq_map_tokenAt, List.mem_map] at ht
  obtain ⟨j, -, rfl⟩ := ht
  rw [covers_tokenAt_iff]
  rintro ⟨hle, hlt⟩
  have hcode := (filled_withoutComment_iff.1 (Token.filled_of_lt_wordEnd hle hlt)).1
  omega

end Tokens

theorem holdsWords_iff {line : String} :
    holdsWords line = true ↔ ∃ i, Token.Filled line.toList i := by
  unfold holdsWords Token.Filled
  rw [List.any_eq_true]
  simp only [List.mem_iff_getElem?, Bool.not_eq_true']
  constructor
  · rintro ⟨c, ⟨i, hi⟩, hc⟩
    exact ⟨i, c, hi, hc⟩
  · rintro ⟨i, c, hi, hc⟩
    exact ⟨c, ⟨i, hi⟩, hc⟩

theorem mem_numbered_iff {lines : List String} {number : Nat} :
    (line, number) ∈ numbered commentChars lines 1 ↔
      1 ≤ number ∧ lines[number - 1]? = some line ∧
        ∃ i < commentStart commentChars line, Token.Filled line.toList i := by
  rw [numbered, List.mem_filter, List.mk_mem_zipIdx_iff_le_and_getElem?_sub, holdsWords_iff,
    and_assoc]
  simp only [filled_withoutComment_iff]

theorem pairwise_number (source commentChars : String) (file : Option String) :
    ((scan source file commentChars).map (·.number)).Pairwise (· < ·) := by
  rw [scan_eq_map, List.map_map, List.pairwise_map]
  have hnumbers : ((Text.lines source).zipIdx 1).Pairwise fun x y => x.2 < y.2 := by
    rw [← List.pairwise_map (f := Prod.snd) (R := (· < ·)), List.zipIdx_map_snd]
    exact List.pairwise_lt_range' 1
  exact hnumbers.filter _

/-- Scanning keeps exactly the lines of a text that have a word before their comment, in order and as
they were written. The tokens of a line stand in it from left to right, where their columns say and
with nothing but blanks, the comment and the ends of the line beside them. Each character before the
comment that is not blank is in one token, and none of the comment is. -/
theorem scan_keeps_all (source commentChars : String) (file : Option String) :
    Text.Cut source.toList ((Text.lines source).map String.toList) ∧
    ((scan source file commentChars).map (·.number)).Pairwise (· < ·) ∧
    (∀ number line,
      (∃ l ∈ scan source file commentChars, l.number = number ∧ l.text = line) ↔
        1 ≤ number ∧ (Text.lines source)[number - 1]? = some line ∧
          ∃ i < commentStart commentChars line, Token.Filled line.toList i) ∧
    ∀ l ∈ scan source file commentChars,
      (l.tokens.map (·.column)).Pairwise (· < ·) ∧
      (∀ t ∈ l.tokens, t.line = some l.number ∧ t.file = file ∧
        ∃ i, t.StandsAt commentChars l.text i) ∧
      (∀ i < commentStart commentChars l.text, Token.Filled l.text.toList i →
        ∃! t, t ∈ l.tokens ∧ t.Covers i) ∧
      ∀ i, commentStart commentChars l.text ≤ i → ∀ t ∈ l.tokens, ¬ t.Covers i := by
  refine ⟨Text.cut_lines source, pairwise_number source commentChars file, ?_, ?_⟩
  · intro number line
    rw [← mem_numbered_iff, scan_eq_map]
    constructor
    · rintro ⟨l, hl, rfl, rfl⟩
      obtain ⟨x, hx, rfl⟩ := List.mem_map.1 hl
      exact hx
    · intro h
      exact ⟨_, List.mem_map_of_mem h, rfl, rfl⟩
  · intro l hl
    obtain ⟨-, -, htokens, -⟩ := of_mem_scan hl
    rw [htokens]
    refine ⟨pairwise_column _ _, ?_, ?_, ?_⟩
    · intro t ht
      rw [scan_eq_map_tokenAt, List.mem_map] at ht
      obtain ⟨i, hi, rfl⟩ := ht
      exact ⟨rfl, rfl, i, standsAt_tokenAt _ _ hi⟩
    · intro i hcode hfilled
      exact existsUnique_covers _ _ hcode hfilled
    · intro i hcomment t ht
      exact not_covers_comment _ _ hcomment ht

/-- Four lines after three kinds of breaks: a statement with a comment, nothing, only a comment, and
a word that a comment follows at once. -/
def commentedSource : String :=
  "A\tLDA X;I\r\n\n ;HLT\x0b B/CLA"

theorem scan_keeps_all_of_commentedSource :
    (∃ l ∈ scan commentedSource none ";/", l.number = 4 ∧ l.text = " B/CLA" ∧
      (∃! t, t ∈ l.tokens ∧ t.Covers 1) ∧ ∀ t ∈ l.tokens, ¬ t.Covers 3) ∧
    (∃ l ∈ scan commentedSource none ";/", l.number = 1 ∧
      ∀ t ∈ l.tokens, ∃ i, t.StandsAt ";/" "A\tLDA X;I" i) ∧
    ¬ ∃ l ∈ scan commentedSource none ";/", l.number = 3 ∧ l.text = " ;HLT" := by
  obtain ⟨-, -, hkept, htokens⟩ := scan_keeps_all commentedSource ";/" none
  refine ⟨?_, ?_, ?_⟩
  · obtain ⟨l, hl, hnumber, htext⟩ := (hkept 4 " B/CLA").2
      ⟨by decide, by decide, 1, by decide, 'B', by decide, by decide⟩
    obtain ⟨-, -, hcovered, hcomment⟩ := htokens l hl
    rw [htext] at hcovered hcomment
    exact ⟨l, hl, hnumber, htext, hcovered 1 (by decide) ⟨'B', by decide, by decide⟩,
      hcomment 3 (by decide)⟩
  · obtain ⟨l, hl, hnumber, htext⟩ := (hkept 1 "A\tLDA X;I").2
      ⟨by decide, by decide, 0, by decide, 'A', by decide, by decide⟩
    refine ⟨l, hl, hnumber, ?_⟩
    intro t ht
    obtain ⟨-, -, i, hi⟩ := (htokens l hl).2.1 t ht
    exact ⟨i, htext ▸ hi⟩
  · rw [hkept]
    rintro ⟨-, -, i, hi, c, hc, hfilled⟩
    -- the blank at the start is all that stands before the comment
    have hstart : commentStart ";/" " ;HLT" = 1 := by decide
    obtain rfl : i = 0 := by omega
    cases hc
    exact absurd hfilled (by decide)

end CodeLine

end TwoPass
