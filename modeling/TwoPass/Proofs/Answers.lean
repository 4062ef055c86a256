import TwoPass.Proofs.Paths
import TwoPass.Proofs.Sessions

/-!
# Answers

A session assembles as a new one with its settings would, whatever it did before. From then on its
answers and its files are those of that one result: questions, files that cannot be written and
sessions beside it change nothing about that, up to the next program.
-/

namespace TwoPass

/-- What can be asked about the last result. -/
inductive Question where
  | words
  | labels
  | warnings
  | hasWarnings
  | listing
  deriving DecidableEq

inductive Answer where
  | words (cells : List Cell)
  | labels (values : List (String × Int))
  | warnings (messages : List String)
  | hasWarnings (any : Bool)
  | listing (text : String)
  deriving DecidableEq

def Assembly.answer (a : Assembly) : Question → Answer
  | .words => .words a.cells
  | .labels => .labels a.labels.toList
  | .warnings => .warnings (a.warnings.map (·.message))
  | .hasWarnings => .hasWarnings (!a.warnings.isEmpty)
  | .listing => .listing a.listing

/-- The text of a file that shows an assembly. -/
def Printout.text (a : Assembly) : Printout → String
  | .object => a.objectFile
  | .listing => a.listing
  | .symbols => a.symbolFile

namespace Session

/-- The answer of a session. Only the question whether there are warnings needs no result. -/
def ask (s : Session) (q : Question) : Except Failure Answer :=
  match q with
  | .hasWarnings => .ok (.hasWarnings s.hasWarnings)
  | q => s.result.map (·.answer q)

/-- The files are written in one way and differ only in their texts and in what is noted. -/
theorem print_eq_write (s : Session) (tree : FileTree) (printout : Printout) (path : String) :
    ∃ noted, s.print tree printout path =
      s.write tree (Path.ofString path) (fun a => printout.text a) noted := by
  unfold print
  cases printout with
  | object =>
    unfold writeObject
    exact ⟨_, rfl⟩
  | listing =>
    unfold writeListing
    exact ⟨_, rfl⟩
  | symbols =>
    unfold writeSymbols
    exact ⟨_, rfl⟩

section Last

variable {s : Session} {a : Assembly} (h : s.last = some a)

include h

theorem result_of_last : s.result = .ok a := by
  unfold result
  rw [h]

theorem ask_of_last (q : Question) : s.ask q = .ok (a.answer q) := by
  cases q with
  | hasWarnings =>
    show Except.ok (Answer.hasWarnings s.hasWarnings) = _
    unfold hasWarnings
    rw [h]
    rfl
  | words | labels | warnings | listing =>
    unfold ask
    rw [result_of_last h]
    rfl

/-- What becomes of the files, and of the request, when a session with a result writes a text. -/
theorem write_of_last (tree : FileTree) (path : Path) (text noted : Assembly → String) :
    ((s.write tree path text noted).1, (s.write tree path text noted).2.result) =
      match tree.write path (text a).toUTF8 with
      | .ok tree' => (tree', .ok ())
      | .error e => (tree, .error (.file e)) := by
  unfold write
  rw [result_of_last h]
  dsimp only
  cases tree.write path (text a).toUTF8 <;> rfl

theorem print_of_last (tree : FileTree) (printout : Printout) (path : String) :
    ((s.print tree printout path).1, (s.print tree printout path).2.result) =
      match tree.write (Path.ofString path) (printout.text a).toUTF8 with
      | .ok tree' => (tree', .ok ())
      | .error e => (tree, .error (.file e)) := by
  obtain ⟨noted, hwrite⟩ := s.print_eq_write tree printout path
  rw [hwrite]
  exact write_of_last h tree (Path.ofString path) (fun a => printout.text a) noted

end Last

end Session

theorem FileTree.read_of_write {tree tree' : FileTree} {path : Path} {bytes : ByteArray}
    (h : tree.write path bytes = .ok tree') : tree'.read path = .ok bytes := by
  obtain ⟨husable, rfl⟩ := write_eq_ok_iff.1 h
  have hsame := tree.sameDirectories_put (tree.resolve path) bytes
  rw [read_eq_ok_iff, hsame.resolve, file?_put, if_pos rfl]
  exact ⟨hsame.usable husable, rfl⟩

/-- What is called on a session, or happens beside it. -/
inductive Call where
  | assemble (input : Input)
  | ask (q : Question)
  | print (printout : Printout) (path : String)
  /-- Another session, which is new, assembles an input. -/
  | assembleApart (settings : Settings) (input : Input)
  /-- The files are changed from outside. -/
  | change (tree : FileTree)

/-- Whether a call has the session assemble something. -/
def Call.Assembles : Call → Prop
  | .assemble _ => True
  | _ => False

/-- What is given back to a call. -/
inductive Response where
  | assembled (result : Except Failure Assembly)
  | answered (answer : Except Failure Answer)
  | printed (result : Except Failure Unit)
  | nothing

namespace Workspace

def call (w : Workspace) : Call → Workspace × Response
  | .assemble input =>
    (w.step (.assemble input), .assembled (w.session.assembleInput w.tree input).2.result)
  | .ask q => (w.step .ask, .answered (w.session.ask q))
  | .print printout path =>
    (w.step (.print printout path), .printed (w.session.print w.tree printout path).2.result)
  | .assembleApart settings input => (w, .assembled (input.outcome settings w.tree))
  | .change tree => (w.step (.change tree), .nothing)

/-- The workspace after calls in order. -/
def after (w : Workspace) (calls : List Call) : Workspace :=
  calls.foldl (fun w c => (w.call c).1) w

theorem after_cons (w : Workspace) (c : Call) (calls : List Call) :
    w.after (c :: calls) = (w.call c).1.after calls := rfl

theorem after_append (w : Workspace) (calls calls' : List Call) :
    w.after (calls ++ calls') = (w.after calls).after calls' :=
  List.foldl_append

/-- No call changes the settings. -/
theorem settings_call (w : Workspace) (c : Call) :
    (w.call c).1.session.settings = w.session.settings := by
  cases c with
  | ask | print | assembleApart | change => rfl
  | assemble input =>
    show (w.session.assembleInput w.tree input).1.settings = _
    cases h : input.unreadable? w.tree with
    | some f => rw [(w.session.assembleInput_of_unreadable h).1]
    | none => rw [w.session.assembleInput_session h]

/-- A call that assembles nothing leaves the session as it is. -/
theorem session_call {c : Call} (w : Workspace) (h : ¬ c.Assembles) :
    (w.call c).1.session = w.session := by
  cases c with
  | ask | print | assembleApart | change => rfl
  | assemble input => exact absurd trivial h

theorem settings_after (w : Workspace) (calls : List Call) :
    (w.after calls).session.settings = w.session.settings := by
  induction calls generalizing w with
  | nil => rfl
  | cons c calls ih => rw [after_cons, ih, settings_call]

theorem session_after {calls : List Call} (w : Workspace) (h : ∀ c ∈ calls, ¬ c.Assembles) :
    (w.after calls).session = w.session := by
  induction calls generalizing w with
  | nil => rfl
  | cons c calls ih =>
    rw [after_cons, ih _ fun c' hc' => h c' (List.mem_cons_of_mem c hc'),
      w.session_call (h c List.mem_cons_self)]

theorem call_print {w : Workspace} {a : Assembly} (h : w.session.last = some a)
    (printout : Printout) (path : String) :
    w.call (.print printout path) =
      match w.tree.write (Path.ofString path) (printout.text a).toUTF8 with
      | .ok tree => ({ w with tree }, .printed (.ok ()))
      | .error e => (w, .printed (.error (.file e))) := by
  have hprint := Session.print_of_last h w.tree printout path
  show (({ w with tree := (w.session.print w.tree printout path).1 } : Workspace),
    Response.printed (w.session.print w.tree printout path).2.result) = _
  split at hprint
  · obtain ⟨htree, hresult⟩ := Prod.mk.inj hprint
    rw [htree, hresult]
  · obtain ⟨htree, hresult⟩ := Prod.mk.inj hprint
    rw [htree, hresult]

/-- The last program that a session was given decides what it tells. If it could be assembled, after
any history, then to the same as in a new session with the same settings. After any calls that
assemble nothing in this session, every question is answered from that result, and every file that
can be written holds the text made of it; one that cannot be written changes nothing. -/
theorem last_result_decides (settings : Settings) (verbose : Bool) (tree : FileTree)
    (before later : List Call) (input : Input) {w w' : Workspace} {a : Assembly}
    (hw : w = after ⟨{ settings, verbose }, tree⟩ before)
    (hok : (w.call (.assemble input)).2 = .assembled (.ok a))
    (hlater : ∀ c ∈ later, ¬ c.Assembles)
    (hw' : w' = after ⟨{ settings, verbose }, tree⟩ (before ++ .assemble input :: later)) :
    input.outcome settings w.tree = .ok a ∧
    (∀ q, w'.call (.ask q) = (w', .answered (.ok (a.answer q)))) ∧
    (∀ (printout : Printout) (path : String) (tree' : FileTree),
      w'.tree.write (Path.ofString path) (printout.text a).toUTF8 = .ok tree' →
      w'.call (.print printout path) = ({ w' with tree := tree' }, .printed (.ok ())) ∧
      tree'.read (Path.ofString path) = .ok (printout.text a).toUTF8) ∧
    ∀ (printout : Printout) (path : String) (e : AccessError),
      w'.tree.write (Path.ofString path) (printout.text a).toUTF8 = .error e →
      w'.call (.print printout path) = (w', .printed (.error (.file e))) := by
  have hsettings : w.session.settings = settings := by
    rw [hw, settings_after]
  have houtcome : input.outcome w.session.settings w.tree = .ok a := by
    rw [← w.session.assembleInput_result]
    exact Response.assembled.inj hok
  -- the result is stored at once, and nothing that follows touches the session
  have hlast : w'.session.last = some a := by
    rw [hw', after_append, ← hw, after_cons, session_after _ hlater]
    show (w.session.assembleInput w.tree input).1.last = some a
    rw [w.session.assembleInput_of_ok houtcome]
  refine ⟨hsettings ▸ houtcome, ?_, ?_, ?_⟩
  · intro q
    show (w', Response.answered (w'.session.ask q)) = _
    rw [Session.ask_of_last hlast]
  · intro printout path tree' hwrite
    refine ⟨?_, FileTree.read_of_write hwrite⟩
    rw [call_print hlast, hwrite]
  · intro printout path e hwrite
    rw [call_print hlast, hwrite]

/-- A directory with a program and another directory in it. -/
def programAndDirectory : FileTree :=
  ⟨[], [["d"]], [(["p.asm"], "B LDA X\n".toUTF8)]⟩

/-- A program that is assembled, one that is not, a file that is not there, and a question. -/
def mixedCalls : List Call :=
  [.assemble (.lines [.text "A DEC 0"] (some defaultFile)), .assemble (.source "dec 0" none),
   .assemble (.file (Path.ofString "missing.asm")), .ask .words]

/-- A question, a file that cannot be written, one that can, and a session beside this one that
refuses the same program. -/
def quietCalls : List Call :=
  [.ask .hasWarnings, .print .object "d", .print .listing "p.lst",
   .assembleApart { strictLabels := true } (.file (Path.ofString "p.asm"))]

theorem last_result_decides_after_mixedCalls :
    ∃ w a, w = after ⟨{}, programAndDirectory⟩
        (mixedCalls ++ .assemble (.file (Path.ofString "p.asm")) :: quietCalls) ∧
      (Input.file (Path.ofString "p.asm")).outcome {} programAndDirectory = .ok a ∧
      w.call (.ask .labels) = (w, .answered (.ok (.labels [("B", 0)]))) ∧
      w.call (.ask .hasWarnings) = (w, .answered (.ok (.hasWarnings true))) ∧
      (w.call (.print .object "p.obj")).1.tree.read (Path.ofString "p.obj") =
        .ok "0000 0010000000000000\n".toUTF8 ∧
      w.call (.print .symbols "d") =
        (w, .printed (.error (.file (.refused (FileErrorKind.isDirectory.at "d"))))) := by
  obtain ⟨a, ha⟩ : ∃ a, ((after ⟨{}, programAndDirectory⟩ mixedCalls).call
      (.assemble (.file (Path.ofString "p.asm")))).2 = .assembled (.ok a) := ⟨_, rfl⟩
  have hquiet : ∀ c ∈ quietCalls, ¬ c.Assembles := by
    intro c hc
    simp only [quietCalls, List.mem_cons, List.not_mem_nil, or_false] at hc
    rcases hc with rfl | rfl | rfl | rfl <;> exact id
  obtain ⟨houtcome, hasked, hprinted, hrefused⟩ :=
    last_result_decides {} false programAndDirectory mixedCalls quietCalls _ rfl ha hquiet rfl
  refine ⟨_, a, rfl, houtcome, ?_, ?_, ?_, ?_⟩
  · rw [hasked]
    cases ha
    rfl
  · rw [hasked]
    cases ha
    rfl
  · obtain ⟨hcall, hread⟩ := hprinted .object "p.obj" _ rfl
    rw [hcall]
    cases ha
    exact hread
  · exact hrefused .symbols "d" _ rfl

end Workspace

end TwoPass
