import TwoPass.Proofs.Sessions
import TwoPass.Proofs.Words

/-!
# Line breaks in files

A file is read with its line breaks unified, a text is not. The lines are the same: a carriage
return ends a line just where the line feed in its place does, and before a line feed it is no break
of its own in either. So a file comes to what its text comes to.
-/

namespace TwoPass

namespace Text

/-- Characters with their breaks unified, without those done before. -/
def unified : List Char → List Char
  | [] => []
  | '\r' :: '\n' :: rest => '\n' :: unified rest
  | c :: rest => (if c == '\r' then '\n' else c) :: unified rest

theorem unifyBreaksFrom_eq (done cs : List Char) :
    unifyBreaksFrom done cs = done.reverse ++ unified cs := by
  fun_induction unifyBreaksFrom done cs with
  | case1 done => rw [unified, List.append_nil]
  | case2 done rest ih =>
    rw [ih, unified, List.reverse_cons, List.append_assoc]
    rfl
  | case3 done c rest hpair ih =>
    rw [ih, unified, List.reverse_cons, List.append_assoc]
    · rfl
    · exact hpair

theorem linesFrom_lineFeed (line rest : List Char) :
    linesFrom line ('\n' :: rest) = line.reverse :: linesFrom [] rest := by
  have hfeed := @linesFrom_append_break [] rest nofun line
  rwa [List.append_nil] at hfeed

theorem linesFrom_unified (line cs : List Char) :
    linesFrom line (unified cs) = linesFrom line cs := by
  fun_induction linesFrom line cs with
  | case1 line hline => rw [unified, linesFrom, if_pos hline]
  | case2 line hline => rw [unified, linesFrom, if_neg hline]
  | case3 line rest ih => rw [unified, linesFrom_lineFeed, ih]
  | case4 line c rest hpair hc ih =>
    rw [unified]
    · by_cases hreturn : c = '\r'
      · -- a lone carriage return is a break, and so is the line feed that it becomes
        rw [if_pos (by simpa using hreturn), linesFrom_lineFeed, ih]
      · rw [if_neg (by simpa using hreturn), linesFrom, if_pos hc, ih]
        intro rest' hcr
        exact absurd hcr hreturn
    · exact hpair
  | case5 line c rest hpair hc ih =>
    have hreturn : c ≠ '\r' := by
      rintro rfl
      exact hc rfl
    rw [unified, if_neg (by simpa using hreturn), linesFrom, if_neg hc, ih]
    · intro rest' hcr
      exact absurd hcr hreturn
    · exact hpair

/-- Unifying the breaks of a text moves no character to another line. -/
theorem lines_unifyBreaks (text : String) : lines (unifyBreaks text) = lines text := by
  unfold lines unifyBreaks
  rw [String.toList_ofList, unifyBreaksFrom_eq, List.reverse_nil, List.nil_append,
    linesFrom_unified]

end Text

theorem Utf8.read_toUTF8 (text : String) : read text.toUTF8 = .ok text := by
  have hvalid : String.fromUTF8? text.toUTF8 = some text := by
    rw [String.toUTF8_eq_toByteArray, String.fromUTF8?, dif_pos text.isValidUTF8]
    rfl
  unfold read
  rw [hvalid]

/-- A source text is read by its lines. -/
theorem SourceStatement.ofSource_congr_lines {source source' : String}
    (h : Text.lines source = Text.lines source') (file : Option String) (commentChars : String) :
    ofSource source file commentChars = ofSource source' file commentChars := by
  unfold ofSource CodeLine.scan
  rw [h]

namespace Session

theorem readText_of_toUTF8 {tree : FileTree} {path : Path} {text : String}
    (h : tree.read path = .ok text.toUTF8) :
    readText tree path = .ok (Text.unifyBreaks text) := by
  unfold readText
  simp only [h, Utf8.read_toUTF8]

/-- A file comes to what its text comes to under the file's name: the same assembly, with the same
places and the same warnings, or the same failure. The session holds the same then, and its journal
has one record more, of the file. -/
theorem file_agrees_with_source (s : Session) {tree : FileTree} {path : Path} {text : String}
    (h : tree.read path = .ok text.toUTF8) :
    (s.assembleFile tree path).2.result = (s.assembleSource text (some path.text)).2.result ∧
    (s.assembleFile tree path).1 = (s.assembleSource text (some path.text)).1 ∧
    (s.assembleFile tree path).2.records =
      s.note ("Assembling " ++ path.text ++ "...") ::
        (s.assembleSource text (some path.text)).2.records := by
  have hsource : s.assembleSource (Text.unifyBreaks text) (some path.text) =
      s.assembleSource text (some path.text) := by
    unfold assembleSource
    rw [SourceStatement.ofSource_congr_lines (Text.lines_unifyBreaks text)]
  unfold assembleFile
  simp only [readText_of_toUTF8 h, hsource, and_self]

/-- A text with every kind of break, and a carriage return at its end. -/
def brokenText : String :=
  "LDA X I\r\r\nX DEC 5\n\rBUN\x85END\r"

theorem file_agrees_with_source_of_brokenText :
    FileTree.read ⟨[], [], [(["p.asm"], brokenText.toUTF8)]⟩ (Path.ofString "p.asm") =
      .ok brokenText.toUTF8 ∧
    (assembleFile {} ⟨[], [], [(["p.asm"], brokenText.toUTF8)]⟩
      (Path.ofString "p.asm")).2.result.toOption.map (fun a =>
        a.cells.map fun c => (c.address, c.word, c.statement.origin.location.bind (·.line))) =
      some [(0, 0xA001#16, some 1), (1, 0x0005#16, some 3), (2, 0x4000#16, some 5)] := by
  have hread : FileTree.read ⟨[], [], [(["p.asm"], brokenText.toUTF8)]⟩ (Path.ofString "p.asm") =
      .ok brokenText.toUTF8 := rfl
  refine ⟨hread, ?_⟩
  rw [(file_agrees_with_source {} hread).1]
  decide +kernel

end Session

end TwoPass
