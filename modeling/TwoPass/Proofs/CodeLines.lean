import TwoPass.Proofs.CorrespondingWords
import TwoPass.Proofs.Reading
import TwoPass.Proofs.Sessions

/-!
# Lines of code

The lines of code of a source text are its lines, cut before their comments, without those that are
blank then. A source text is read as its lines of code are: to the same statements, or to the same
problem on the line that the refused one was cut from. Only line numbers and quoted lines differ,
and where every line is a line of code as it stands, nothing does.
-/

namespace TwoPass

section Traversal

variable {ε α β : Type} {f g : α → Except ε β} {S : β → β → Prop} {E : α → ε → ε → Prop}

/-- Two readers that agree on every item agree on a list of items: both read it all, or both fail at
the same item. -/
theorem mapM_agree {xs : List α}
    (h : ∀ x ∈ xs, (∃ y z, f x = .ok y ∧ g x = .ok z ∧ S y z) ∨
      ∃ d e, f x = .error d ∧ g x = .error e ∧ E x d e) :
    (∃ ys zs, xs.mapM f = .ok ys ∧ xs.mapM g = .ok zs ∧ List.Forall₂ S ys zs) ∨
      ∃ x ∈ xs, ∃ d e, xs.mapM f = .error d ∧ xs.mapM g = .error e ∧ E x d e := by
  induction xs with
  | nil => exact Or.inl ⟨[], [], rfl, rfl, .nil⟩
  | cons x xs ih =>
    rw [List.mapM_cons, List.mapM_cons]
    rcases h x List.mem_cons_self with ⟨y, z, hy, hz, hyz⟩ | ⟨d, e, hd, he, hde⟩
    · rw [hy, hz]
      -- the first item is read, so the rest decides
      rcases ih fun x' hx' => h x' (List.mem_cons_of_mem x hx') with
        ⟨ys, zs, hys, hzs, hall⟩ | ⟨x', hx', d, e, hd, he, hde⟩
      · rw [hys, hzs]
        exact Or.inl ⟨y :: ys, z :: zs, rfl, rfl, .cons hyz hall⟩
      · rw [hd, he]
        exact Or.inr ⟨x', List.mem_cons_of_mem x hx', d, e, rfl, rfl, hde⟩
    · rw [hd, he]
      exact Or.inr ⟨x, List.mem_cons_self, d, e, rfl, rfl, hde⟩

end Traversal

/-! ## The same words on another line -/

/-- The origin moved to another line, which is quoted. -/
def Origin.onLine (number : Nat) (source : String) (o : Origin) : Origin :=
  ⟨o.location.map fun l => { l with line := some number }, some source⟩

def Diagnostic.onLine (number : Nat) (source : String) (d : Diagnostic) : Diagnostic :=
  { d with origin := d.origin.onLine number source }

def SourceStatement.onLine (number : Nat) (source : String) (s : SourceStatement) :
    SourceStatement :=
  { s with origin := s.origin.onLine number source }

def Token.onLine (number : Nat) (t : Token) : Token :=
  { t with line := some number }

def Shape.onLine (number : Nat) (shape : Shape) : Shape :=
  { shape with
    label := shape.label.map (Token.onLine number)
    op := shape.op.onLine number
    operand := shape.operand.map (Token.onLine number) }

theorem Token.scan_onLine (line : String) (n number : Nat) (file : Option String) :
    scan line (some number) file = (scan line (some n) file).map (onLine number) := by
  unfold scan
  rw [List.map_map]
  rfl

theorem Shape.ofTokens?_onLine (tokens : List Token) (number : Nat) :
    ofTokens? (tokens.map (Token.onLine number)) = (ofTokens? tokens).map (onLine number) := by
  -- a shape depends on the texts of the tokens and on how many there are
  match tokens with
  | [] => rfl
  | [_] => rfl
  | [_, _] => rfl
  | [_, _, _] =>
    simp only [ofTokens?, apply_ite (Option.map (onLine number))]
    rfl
  | [_, _, _, _] =>
    simp only [ofTokens?, apply_ite (Option.map (onLine number))]
    rfl
  | _ :: _ :: _ :: _ :: _ :: _ => rfl

theorem startOf_onLine (tokens : List Token) (n number : Nat) (file : Option String) :
    startOf (tokens.map (Token.onLine number)) (some number) file =
      { startOf tokens (some n) file with line := some number } := by
  cases tokens <;> rfl

theorem SourceStatement.ofTokens_onLine (tokens : List Token) (n number : Nat)
    (file : Option String) (source source' : String) :
    ofTokens (tokens.map (Token.onLine number)) (some number) file source =
      match ofTokens tokens (some n) file source' with
      | .ok s => .ok (s.onLine number source)
      | .error d => .error (d.onLine number source) := by
  unfold ofTokens
  rw [Shape.ofTokens?_onLine, startOf_onLine tokens n]
  cases Shape.ofTokens? tokens with
  | none =>
    show Except.error _ = Except.error _
    rw [List.length_map]
    rfl
  | some shape =>
    simp only [Option.map_some, Operation.read]
    have htext : (shape.onLine number).op.text = shape.op.text := rfl
    rw [htext]
    cases Operation.ofMnemonic? shape.op.text with
    | none => rfl
    | some op =>
      simp only [orUnknown, Shape.onLine, Option.map_map]
      rfl

namespace CodeLine

/-- Whether a line holds anything but blanks. -/
def holdsWords (line : String) : Bool :=
  line.toList.any fun c => !Text.isBlank c

/-- The lines of code among some lines: each cut before its comment, and the blank ones left
out. -/
def codeLines (commentChars : String) (lines : List String) : List String :=
  (lines.map (withoutComment commentChars)).filter holdsWords

/-- Where a line of code comes from. Line of code `k`, counted from 0, is cut from line `number`,
counted from 1, if there are `k` lines of code before that line. -/
structure CutFrom (commentChars : String) (lines : List String) (k number : Nat)
    (line : String) : Prop where
  one_le_number : 1 ≤ number
  isLine : lines[number - 1]? = some line
  isCode : (codeLines commentChars lines)[k]? = some (withoutComment commentChars line)
  before : (codeLines commentChars (lines.take (number - 1))).length = k

/-- The lines that hold code before their comment, each with its number. -/
def numbered (commentChars : String) (lines : List String) (first : Nat) : List (String × Nat) :=
  (lines.zipIdx first).filter fun x => holdsWords (withoutComment commentChars x.1)

end CodeLine

theorem Token.wordsFrom_eq_nil_iff {column : Nat} {word cs : List Char} :
    wordsFrom column word cs = [] ↔ word = [] ∧ ∀ c ∈ cs, Text.isBlank c = true := by
  induction cs generalizing column word with
  | nil => cases word <;> simp [wordsFrom]
  | cons c cs ih =>
    rw [wordsFrom]
    by_cases hc : Text.isBlank c = true
    · rw [if_pos hc]
      cases word with
      | nil => simp [ih, hc]
      | cons d word => simp
    · -- a character that is not blank goes into a word, which is kept
      rw [if_neg hc, ih]
      simp [hc]

theorem Token.scan_eq_nil_iff {line : String} {number : Option Int} {file : Option String} :
    scan line number file = [] ↔ CodeLine.holdsWords line = false := by
  unfold scan CodeLine.holdsWords
  rw [List.map_eq_nil_iff, wordsFrom_eq_nil_iff]
  simp

theorem Token.exists_column_of_mem_scan {line : String} {number : Option Int}
    {file : Option String} {t : Token} (h : t ∈ scan line number file) :
    ∃ column, t.location = ⟨file, number, column⟩ := by
  obtain ⟨⟨column, word⟩, -, rfl⟩ := List.mem_map.1 h
  exact ⟨column, rfl⟩

theorem Token.exists_column_startOf (line : String) (number : Option Int) (file : Option String) :
    ∃ column, startOf (scan line number file) number file = ⟨file, number, column⟩ := by
  unfold startOf
  split
  · rename_i t ts hscan
    have hfirst : t ∈ scan line number file := by
      rw [hscan]
      exact List.mem_cons_self
    exact exists_column_of_mem_scan hfirst
  · exact ⟨0, rfl⟩

namespace CodeLine

variable {commentChars : String} {file : Option String}

theorem codeLines_cons (line : String) (lines : List String) :
    codeLines commentChars (line :: lines) =
      if holdsWords (withoutComment commentChars line) then
        withoutComment commentChars line :: codeLines commentChars lines
      else codeLines commentChars lines := by
  unfold codeLines
  rw [List.map_cons, List.filter_cons]

theorem codeLines_eq_map (lines : List String) (first : Nat) :
    codeLines commentChars lines =
      (numbered commentChars lines first).map fun x => withoutComment commentChars x.1 := by
  induction lines generalizing first with
  | nil => rfl
  | cons line lines ih =>
    unfold numbered at ih ⊢
    rw [codeLines_cons, ih (first + 1), List.zipIdx_cons, List.filter_cons]
    split <;> rfl

theorem scan_eq_map (source : String) :
    scan source file commentChars =
      (numbered commentChars (Text.lines source) 1).map fun x =>
        ⟨x.2, x.1, Token.scan (withoutComment commentChars x.1) (some x.2) file⟩ := by
  have hline : ∀ x : String × Nat, ofText? file commentChars x.2 x.1 =
      if holdsWords (withoutComment commentChars x.1) then
        some ⟨x.2, x.1, Token.scan (withoutComment commentChars x.1) (some x.2) file⟩
      else none := by
    intro x
    unfold ofText?
    split
    · rename_i hnil
      rw [Token.scan_eq_nil_iff.1 hnil, if_neg Bool.false_ne_true]
    · rename_i hne
      rw [if_pos]
      by_contra hblank
      exact hne (Token.scan_eq_nil_iff.2 (Bool.not_eq_true _ ▸ hblank))
  unfold scan numbered
  rw [← List.filterMap_eq_map, List.filterMap_filter]
  exact List.filterMap_congr fun x _ => hline x

/-- A numbered line is found again in the text, behind as many lines of code. -/
theorem of_getElem?_numbered {lines : List String} {first k number : Nat} {line : String}
    (h : (numbered commentChars lines first)[k]? = some (line, number)) :
    first ≤ number ∧ lines[number - first]? = some line ∧
      (codeLines commentChars (lines.take (number - first))).length = k := by
  unfold numbered at h
  induction lines generalizing first k with
  | nil => cases h
  | cons l lines ih =>
    rw [List.zipIdx_cons, List.filter_cons] at h
    split at h
    · rename_i hl
      cases k with
      | zero =>
        cases h
        rw [Nat.sub_self]
        exact ⟨Nat.le_refl _, rfl, rfl⟩
      | succ k =>
        obtain ⟨hle, hline, hbefore⟩ := ih h
        have hsub : number - first = number - (first + 1) + 1 := by omega
        rw [hsub, List.take_succ_cons, codeLines_cons, if_pos hl, List.length_cons, hbefore]
        exact ⟨by omega, hline, rfl⟩
    · rename_i hl
      obtain ⟨hle, hline, hbefore⟩ := ih h
      have hsub : number - first = number - (first + 1) + 1 := by omega
      rw [hsub, List.take_succ_cons, codeLines_cons, if_neg hl, hbefore]
      exact ⟨by omega, hline, rfl⟩

theorem cutFrom_of_getElem? {lines : List String} {k number : Nat} {line : String}
    (h : (numbered commentChars lines 1)[k]? = some (line, number)) :
    CutFrom commentChars lines k number line := by
  obtain ⟨hle, hline, hbefore⟩ := of_getElem?_numbered h
  refine ⟨hle, hline, ?_, hbefore⟩
  rw [codeLines_eq_map lines 1, List.getElem?_map, h]
  rfl

end CodeLine

namespace SourceStatement

variable {commentChars : String} {file : Option String}

/-- The statement of a numbered line of a source text, which is quoted with its comment. -/
def ofSourceLine (commentChars : String) (file : Option String) (x : String × Nat) :
    Except Diagnostic SourceStatement :=
  ofTokens (Token.scan (CodeLine.withoutComment commentChars x.1) (some x.2) file) (some x.2) file
    x.1

/-- The statement of line of code `number`, counted from 1. -/
def ofCodeLine (file : Option String) (code : String) (number : Nat) :
    Except Diagnostic SourceStatement :=
  ofTokens (Token.scan code (some number) file) (some number) file code

/-- The statements of the lines of code of a source text, read as lines that were given one by
one. -/
def ofCode (source : String) (file : Option String) (commentChars : String) :
    Except Diagnostic (List SourceStatement) :=
  ofLines ((CodeLine.codeLines commentChars (Text.lines source)).map .text) file

theorem ofSource_eq_mapM (source : String) :
    ofSource source file commentChars =
      ((CodeLine.numbered commentChars (Text.lines source) 1).zipIdx 1).mapM fun x =>
        ofSourceLine commentChars file x.1 := by
  unfold ofSource
  rw [CodeLine.scan_eq_map, List.mapM_map]
  conv_lhs => rw [← List.zipIdx_map_fst 1 (CodeLine.numbered commentChars (Text.lines source) 1)]
  rw [List.mapM_map]
  simp only [Function.comp_def, ofSourceLine]

theorem ofCode_eq_mapM (source : String) :
    ofCode source file commentChars =
      ((CodeLine.numbered commentChars (Text.lines source) 1).zipIdx 1).mapM fun x =>
        ofCodeLine file (CodeLine.withoutComment commentChars x.1.1) x.2 := by
  unfold ofCode ofLines
  rw [CodeLine.codeLines_eq_map _ 1, List.map_map, List.zipIdx_map, List.mapM_map]
  simp only [Function.comp_def, ofCodeLine]
  rfl

/-- A line is read as its code is, but for where it stands. -/
theorem ofSourceLine_eq (line : String) (number k : Nat) :
    ofSourceLine commentChars file (line, number) =
      match ofCodeLine file (CodeLine.withoutComment commentChars line) k with
      | .ok s => .ok (s.onLine number line)
      | .error d => .error (d.onLine number line) := by
  dsimp only [ofSourceLine, ofCodeLine]
  rw [Token.scan_onLine _ k number file, ofTokens_onLine _ k number file line
    (CodeLine.withoutComment commentChars line)]

/-- A line of code is refused at one of its columns. -/
theorem ofCodeLine_eq_error {code : String} {number : Nat} {d : Diagnostic}
    (h : ofCodeLine file code number = .error d) :
    ∃ column, d.origin = ⟨some ⟨file, some number, column⟩, some code⟩ := by
  rcases ofTokens_eq_error h with rfl | ⟨t, ht, -, rfl⟩
  · obtain ⟨column, hcolumn⟩ := Token.exists_column_startOf code (some number) file
    exact ⟨column, by rw [hcolumn]⟩
  · obtain ⟨column, hcolumn⟩ := Token.exists_column_of_mem_scan (List.mem_of_getElem? ht)
    exact ⟨column, by rw [hcolumn]⟩

/-- A source text and its lines of code have the same statements, or they are refused for the same
cause, at the same column of a line and of the code that is cut from it. -/
theorem readings_agree (source commentChars : String) (file : Option String) :
    (∃ p q, ofSource source file commentChars = .ok p ∧
      ofCode source file commentChars = .ok q ∧
      List.Forall₂ (fun s t => s.toStatement = t.toStatement) p q) ∨
    ∃ k number line problem column,
      CodeLine.CutFrom commentChars (Text.lines source) k number line ∧
      ofSource source file commentChars =
        .error ⟨problem, ⟨some ⟨file, some (number : Nat), column⟩, some line⟩⟩ ∧
      ofCode source file commentChars =
        .error ⟨problem, ⟨some ⟨file, some (k + 1 : Nat), column⟩,
          some (CodeLine.withoutComment commentChars line)⟩⟩ := by
  have hlines : ∀ x ∈ (CodeLine.numbered commentChars (Text.lines source) 1).zipIdx 1,
      (∃ s t, ofSourceLine commentChars file x.1 = .ok s ∧
        ofCodeLine file (CodeLine.withoutComment commentChars x.1.1) x.2 = .ok t ∧
        s.toStatement = t.toStatement) ∨
      ∃ d e, ofSourceLine commentChars file x.1 = .error d ∧
        ofCodeLine file (CodeLine.withoutComment commentChars x.1.1) x.2 = .error e ∧
        d = e.onLine x.1.2 x.1.1 ∧
        ∃ column, e.origin = ⟨some ⟨file, some x.2, column⟩,
          some (CodeLine.withoutComment commentChars x.1.1)⟩ := by
    intro x _
    rw [ofSourceLine_eq x.1.1 x.1.2 x.2]
    cases h : ofCodeLine file (CodeLine.withoutComment commentChars x.1.1) x.2 with
    | ok s => exact Or.inl ⟨_, s, rfl, rfl, rfl⟩
    | error e => exact Or.inr ⟨_, e, rfl, rfl, rfl, ofCodeLine_eq_error h⟩
  rw [ofSource_eq_mapM, ofCode_eq_mapM]
  rcases mapM_agree hlines with
    hread | ⟨⟨⟨line, number⟩, i⟩, hmem, d, e, hd, he, rfl, column, hcolumn⟩
  · exact Or.inl hread
  · right
    obtain ⟨hi, hline⟩ := List.mk_mem_zipIdx_iff_le_and_getElem?_sub.1 hmem
    have hnumber : i - 1 + 1 = i := by omega
    refine ⟨i - 1, number, line, e.problem, column, CodeLine.cutFrom_of_getElem? hline, ?_, ?_⟩
    · rw [hd, Diagnostic.onLine, hcolumn]
      rfl
    · rw [he, hnumber, ← hcolumn]

/-- A source text without comments and without blank lines is read as its lines are. -/
theorem ofCode_eq_ofSource {source commentChars : String}
    (h : ∀ line ∈ Text.lines source,
      CodeLine.holdsWords line = true ∧ ∀ c ∈ line.toList, c ∉ commentChars.toList)
    (file : Option String) :
    ofCode source file commentChars = ofSource source file commentChars := by
  have huncut : ∀ line ∈ Text.lines source, CodeLine.withoutComment commentChars line = line := by
    intro line hline
    have hkeep : ∀ c ∈ line.toList, (!commentChars.toList.contains c) = true := by
      simpa using (h line hline).2
    rw [CodeLine.withoutComment, List.takeWhile_eq_self_iff.2 hkeep, String.ofList_toList]
  have hcode : CodeLine.codeLines commentChars (Text.lines source) = Text.lines source := by
    have hmap : (Text.lines source).map (CodeLine.withoutComment commentChars) =
        Text.lines source := (List.map_congr_left huncut).trans (List.map_id _)
    unfold CodeLine.codeLines
    rw [hmap]
    exact List.filter_eq_self.2 fun line hline => (h line hline).1
  have hscan : CodeLine.scan source file commentChars =
      ((Text.lines source).zipIdx 1).map fun x =>
        ⟨x.2, x.1, Token.scan x.1 (some x.2) file⟩ := by
    have hall : CodeLine.numbered commentChars (Text.lines source) 1 =
        (Text.lines source).zipIdx 1 := by
      apply List.filter_eq_self.2
      intro x hx
      have hline := List.fst_mem_of_mem_zipIdx hx
      rw [huncut _ hline]
      exact (h _ hline).1
    rw [CodeLine.scan_eq_map, hall]
    apply List.map_congr_left
    intro x hx
    rw [huncut _ (List.fst_mem_of_mem_zipIdx hx)]
  unfold ofCode ofSource ofLines
  rw [hcode, hscan, List.zipIdx_map, List.mapM_map, List.mapM_map]
  rfl

end SourceStatement

namespace Correspondence

/-- A statement is encoded in the same way wherever it comes from. -/
theorem encoded_of_toStatement_eq {s t : SourceStatement} (h : s.toStatement = t.toStatement) :
    (relocation 0).Encoded s t := by
  obtain ⟨s, origin⟩ := s
  obtain ⟨t, origin'⟩ := t
  cases h
  refine ⟨⟨rfl, rel_eq_refl _, fun _ => Iff.rfl, fun _ => ?_⟩, fun _ _ => rfl,
    fun _ _ => rel_eq_refl _, fun _ _ => rfl⟩
  exact (Int.add_zero _).symm

end Correspondence

namespace Assembly

/-- Programs with the same statements are assembled alike, wherever the statements come from. -/
theorem assemble_of_same_statements {p q : List SourceStatement}
    (h : List.Forall₂ (fun s t => s.toStatement = t.toStatement) p q) (settings : Settings) :
    ((∃ b, assemble settings q = .ok b) ↔ ∃ a, assemble settings p = .ok a) ∧
    ∀ a b, assemble settings p = .ok a → assemble settings q = .ok b →
      b.labels.toList = a.labels.toList ∧
      b.cells.map (fun c => (c.address, c.word)) = a.cells.map (fun c => (c.address, c.word)) ∧
      b.layoutTrace = a.layoutTrace ∧ b.emissionTrace = a.emissionTrace := by
  have hencoded : List.Forall₂ (Correspondence.relocation 0).Encoded p q :=
    h.imp fun s t hst => Correspondence.encoded_of_toStatement_eq hst
  refine ⟨Correspondence.exists_assemble_iff rfl hencoded, ?_⟩
  intro a b ha hb
  obtain ⟨b', hb', hcorresponds⟩ :=
    Correspondence.assemble_corresponds (Int.le_refl 0) (Or.inl rfl) hencoded ha
  rw [hb] at hb'
  cases hb'
  refine ⟨?_, hcorresponds.cells_eq rfl,
    Correspondence.eq_of_addresses rfl hcorresponds.layoutTrace,
    Correspondence.eq_of_addresses rfl hcorresponds.emissionTrace⟩
  rw [hcorresponds.labels.toList_eq (fun l l' hl => hl.symm)]
  exact (List.map_congr_left fun x _ => congrArg (Prod.mk x.1) (Int.add_zero x.2)).trans
    (List.map_id _)

end Assembly

namespace Session

theorem assembleLines_of_plain (s : Session) {source commentChars : String}
    (h : ∀ line ∈ Text.lines source,
      CodeLine.holdsWords line = true ∧ ∀ c ∈ line.toList, c ∉ commentChars.toList)
    (file : Option String) (hs : s.settings.commentChars = commentChars) :
    (s.assembleLines ((CodeLine.codeLines commentChars (Text.lines source)).map .text)
      file).2.result = (s.assembleSource source file).2.result := by
  rw [assembleSource_result, hs, ← SourceStatement.ofCode_eq_ofSource h file]
  exact s.assembleRead_result file "lines" _

/-- A source text and its lines of code, given one by one, come to the same. Both are read or both
are refused, on a line and on the code that is cut from it; the statements are the same, and so are
the labels, the words and the traces. If every line is a line of code as it stands, there is no
difference at all. -/
theorem source_agrees_with_lines (source commentChars : String) (file : Option String) :
    ((∃ p, SourceStatement.ofSource source file commentChars = .ok p) ↔
      ∃ q, SourceStatement.ofCode source file commentChars = .ok q) ∧
    (∀ d e, SourceStatement.ofSource source file commentChars = .error d →
      SourceStatement.ofCode source file commentChars = .error e →
      ∃ k number line problem column,
        CodeLine.CutFrom commentChars (Text.lines source) k number line ∧
        d = ⟨problem, ⟨some ⟨file, some (number : Nat), column⟩, some line⟩⟩ ∧
        e = ⟨problem, ⟨some ⟨file, some (k + 1 : Nat), column⟩,
          some (CodeLine.withoutComment commentChars line)⟩⟩) ∧
    (∀ p q, SourceStatement.ofSource source file commentChars = .ok p →
      SourceStatement.ofCode source file commentChars = .ok q →
      q.map (·.toStatement) = p.map (·.toStatement) ∧
      ∀ settings,
        ((∃ b, Assembly.assemble settings q = .ok b) ↔
          ∃ a, Assembly.assemble settings p = .ok a) ∧
        ∀ a b, Assembly.assemble settings p = .ok a → Assembly.assemble settings q = .ok b →
          b.labels.toList = a.labels.toList ∧
          b.cells.map (fun c => (c.address, c.word)) =
            a.cells.map (fun c => (c.address, c.word)) ∧
          b.layoutTrace = a.layoutTrace ∧ b.emissionTrace = a.emissionTrace) ∧
    ((∀ line ∈ Text.lines source,
        CodeLine.holdsWords line = true ∧ ∀ c ∈ line.toList, c ∉ commentChars.toList) →
      SourceStatement.ofCode source file commentChars =
        SourceStatement.ofSource source file commentChars ∧
      ∀ s : Session, s.settings.commentChars = commentChars →
        (s.assembleLines ((CodeLine.codeLines commentChars (Text.lines source)).map .text)
          file).2.result = (s.assembleSource source file).2.result) := by
  rcases SourceStatement.readings_agree source commentChars file with
    ⟨p, q, hp, hq, hpq⟩ | ⟨k, number, line, problem, column, hcut, hd, he⟩
  · refine ⟨iff_of_true ⟨p, hp⟩ ⟨q, hq⟩, ?_, ?_, fun h =>
      ⟨SourceStatement.ofCode_eq_ofSource h file, fun s => s.assembleLines_of_plain h file⟩⟩
    · intro d e hd
      rw [hp] at hd
      cases hd
    · intro p' q' hp' hq'
      rw [hp] at hp'
      rw [hq] at hq'
      cases hp'
      cases hq'
      refine ⟨?_, Assembly.assemble_of_same_statements hpq⟩
      have hsame : List.Forall₂ (· = ·) (p.map (·.toStatement)) (q.map (·.toStatement)) := by
        rw [List.forall₂_map_left_iff, List.forall₂_map_right_iff]
        exact hpq
      rw [List.forall₂_eq_eq_eq] at hsame
      exact hsame.symm
  · refine ⟨?_, ?_, ?_, fun h =>
      ⟨SourceStatement.ofCode_eq_ofSource h file, fun s => s.assembleLines_of_plain h file⟩⟩
    · rw [hd, he]
      exact iff_of_false nofun nofun
    · intro d e hd' he'
      rw [hd] at hd'
      rw [he] at he'
      cases hd'
      cases he'
      exact ⟨k, number, line, problem, column, hcut, rfl, rfl⟩
    · intro p q hp
      rw [hd] at hp
      cases hp

/-- A source with comments before a line that is refused. -/
def refusedSource : String :=
  "; head\n LDA A ; a reference\n A B C D E\n"

/-- A source that is read, with a comment and a blank line between its lines of code. -/
def sparseSource : String :=
  "A DEC 1 ; a number\n\n LDA A\n"

/-- A source in which every line is a line of code as it stands. -/
def plainSource : String :=
  "A DEC 1\n LDA A\n"

theorem source_agrees_with_lines_of_sources :
    (∃ problem column line,
      CodeLine.CutFrom ";/" (Text.lines refusedSource) 1 3 line ∧
      SourceStatement.ofSource refusedSource none ";/" =
        .error ⟨problem, ⟨some ⟨none, some 3, column⟩, some line⟩⟩ ∧
      SourceStatement.ofCode refusedSource none ";/" =
        .error ⟨problem, ⟨some ⟨none, some 2, column⟩,
          some (CodeLine.withoutComment ";/" line)⟩⟩) ∧
    (∃ p q a b, SourceStatement.ofSource sparseSource none ";/" = .ok p ∧
      SourceStatement.ofCode sparseSource none ";/" = .ok q ∧
      q.map (·.toStatement) = p.map (·.toStatement) ∧
      Assembly.assemble {} p = .ok a ∧ Assembly.assemble {} q = .ok b ∧
      b.labels.toList = a.labels.toList ∧ b.layoutTrace = a.layoutTrace) ∧
    SourceStatement.ofCode plainSource none ";/" = SourceStatement.ofSource plainSource none ";/" ∧
    (({} : Session).assembleLines ((CodeLine.codeLines ";/" (Text.lines plainSource)).map .text)
      none).2.result = (({} : Session).assembleSource plainSource none).2.result := by
  refine ⟨?_, ?_, ?_⟩
  · have hd : SourceStatement.ofSource refusedSource none ";/" =
        .error ⟨.fieldCount 5, ⟨some ⟨none, some 3, 2⟩, some " A B C D E"⟩⟩ := by
      decide +kernel
    have he : SourceStatement.ofCode refusedSource none ";/" =
        .error ⟨.fieldCount 5, ⟨some ⟨none, some 2, 2⟩, some " A B C D E"⟩⟩ := by
      decide +kernel
    obtain ⟨k, number, line, problem, column, hcut, hd', he'⟩ :=
      (source_agrees_with_lines refusedSource ";/" none).2.1 _ _ hd he
    have hnumber : number = 3 := by
      have hlocation := congrArg (·.origin.location.bind (·.line)) hd'
      exact (Int.ofNat.inj (Option.some.inj hlocation)).symm
    have hcode : k = 1 := by
      have hlocation := congrArg (·.origin.location.bind (·.line)) he'
      exact (Nat.succ.inj (Int.ofNat.inj (Option.some.inj hlocation))).symm
    subst hnumber hcode
    exact ⟨problem, column, line, hcut, hd.trans (congrArg _ hd'), he.trans (congrArg _ he')⟩
  · obtain ⟨p, hp⟩ : ∃ p, SourceStatement.ofSource sparseSource none ";/" = .ok p := ⟨_, rfl⟩
    obtain ⟨q, hq⟩ := (source_agrees_with_lines sparseSource ";/" none).1.1 ⟨p, hp⟩
    obtain ⟨hsame, hassembled⟩ :=
      (source_agrees_with_lines sparseSource ";/" none).2.2.1 p q hp hq
    have hrun : (Assembly.assemble {} p).toOption.isSome = true := by
      cases hp
      decide +kernel
    obtain ⟨a, ha⟩ := Option.isSome_iff_exists.1 hrun
    have ha := eq_ok_of_toOption ha
    obtain ⟨b, hb⟩ := (hassembled {}).1.2 ⟨a, ha⟩
    obtain ⟨hlabels, -, htrace, -⟩ := (hassembled {}).2 a b ha hb
    exact ⟨p, q, a, b, hp, hq, hsame, ha, hb, hlabels, htrace⟩
  · have hlines : Text.lines plainSource = ["A DEC 1", " LDA A"] := by decide +kernel
    have hall : ["A DEC 1", " LDA A"].all (fun line => CodeLine.holdsWords line &&
        line.toList.all fun c => !";/".toList.contains c) = true := by decide
    have hplain : ∀ line ∈ Text.lines plainSource,
        CodeLine.holdsWords line = true ∧ ∀ c ∈ line.toList, c ∉ ";/".toList := by
      rw [hlines]
      simpa only [List.all_eq_true, Bool.and_eq_true, Bool.not_eq_true', List.contains_eq_mem,
        decide_eq_false_iff_not] using hall
    obtain ⟨hread, hresult⟩ := (source_agrees_with_lines plainSource ";/" none).2.2.2 hplain
    exact ⟨hread, hresult {} rfl⟩

end Session

end TwoPass
