import TwoPass.Session

/-!
# Sessions

What a session holds after any number of requests is the outcome of the last program that it could
read. A program that cannot be assembled leaves nothing to ask for, while a file that cannot be read
leaves what was there before.
-/

namespace TwoPass

/-- What comes of statements that were read, or of the problem in reading them. -/
def Assembly.ofReading (settings : Settings) :
    Except Diagnostic (List SourceStatement) → Except Failure Assembly
  | .error d => .error (.fault (.diagnostic d))
  | .ok statements => (assemble settings statements).mapError .fault

theorem Assembly.ofReading_eq_error {settings : Settings}
    {reading : Except Diagnostic (List SourceStatement)} {e : Failure}
    (h : ofReading settings reading = .error e) :
    ∃ f, e = .fault f ∧ ((∃ d, reading = .error d ∧ f = .diagnostic d) ∨
      ∃ p, reading = .ok p ∧ assemble settings p = .error f) := by
  cases reading with
  | error d =>
    cases h
    exact ⟨_, rfl, Or.inl ⟨d, rfl, rfl⟩⟩
  | ok p =>
    unfold ofReading at h
    cases hp : assemble settings p with
    | ok a => simp only [hp] at h; cases h
    | error f =>
      simp only [hp] at h
      cases h
      exact ⟨f, rfl, Or.inr ⟨p, rfl, hp⟩⟩

theorem Assembly.ofReading_eq_ok_iff {settings : Settings}
    {reading : Except Diagnostic (List SourceStatement)} {a : Assembly} :
    ofReading settings reading = .ok a ↔ ∃ p, reading = .ok p ∧ assemble settings p = .ok a := by
  constructor
  · intro h
    cases reading with
    | error d => cases h
    | ok p =>
      unfold ofReading at h
      cases hp : assemble settings p with
      | error f => simp only [hp] at h; cases h
      | ok b =>
        simp only [hp] at h
        cases h
        exact ⟨p, rfl, hp⟩
  · rintro ⟨p, rfl, hp⟩
    rw [ofReading, hp]
    rfl

/-- What a session can be asked to assemble. -/
inductive Input where
  | statements (statements : List SourceStatement)
  | lines (lines : List RawLine) (file : Option String)
  | source (text : String) (file : Option String)
  | file (path : Path)

/-- Why an input cannot be read. Only files have to be. -/
def Input.unreadable? (tree : FileTree) : Input → Option Failure
  | .file path =>
    match Session.readText tree path with
    | .error f => some f
    | .ok _ => none
  | _ => none

namespace Session

def assembleInput (s : Session) (tree : FileTree) : Input → Session × Reply Assembly
  | .statements statements => s.assembleStatements statements
  | .lines lines file => s.assembleLines lines file
  | .source text file => s.assembleSource text file
  | .file path => s.assembleFile tree path

theorem assembleStatements_result (s : Session) (statements : List SourceStatement) :
    (s.assembleStatements statements).2.result =
      Assembly.ofReading s.settings (.ok statements) := by
  unfold assembleStatements Assembly.ofReading
  cases h : Assembly.assemble s.settings statements <;> simp only [h] <;> rfl

theorem assembleStatements_session (s : Session) (statements : List SourceStatement) :
    (s.assembleStatements statements).1 =
      { s with last := (Assembly.ofReading s.settings (.ok statements)).toOption } := by
  unfold assembleStatements Assembly.ofReading
  cases h : Assembly.assemble s.settings statements <;> simp only [h] <;> rfl

section Read

variable (s : Session) (file : Option String) (unit : String)
  (reading : Except Diagnostic (List SourceStatement))

theorem assembleRead_result :
    (s.assembleRead file unit reading).2.result = Assembly.ofReading s.settings reading := by
  cases reading with
  | error d => rfl
  | ok statements => exact s.assembleStatements_result statements

theorem assembleRead_session :
    (s.assembleRead file unit reading).1 =
      { s with last := (Assembly.ofReading s.settings reading).toOption } := by
  cases reading with
  | error d => rfl
  | ok statements => exact s.assembleStatements_session statements

end Read

theorem assembleSource_result (s : Session) (source : String) (file : Option String) :
    (s.assembleSource source file).2.result = Assembly.ofReading s.settings
      (SourceStatement.ofSource source file s.settings.commentChars) :=
  s.assembleRead_result file "statements" _

theorem assembleFile_of_error (s : Session) {tree : FileTree} {path : Path} {f : Failure}
    (h : readText tree path = .error f) :
    (s.assembleFile tree path).1 = s ∧ (s.assembleFile tree path).2.result = .error f := by
  unfold assembleFile
  simp only [h, and_self]

theorem assembleFile_of_ok (s : Session) {tree : FileTree} {path : Path} {text : String}
    (h : readText tree path = .ok text) :
    (s.assembleFile tree path).1 = (s.assembleSource text (some path.text)).1 ∧
      (s.assembleFile tree path).2.result =
        (s.assembleSource text (some path.text)).2.result := by
  unfold assembleFile
  simp only [h, and_self]

end Session

/-- What comes of an input in a session that has done nothing yet. -/
def Input.outcome (settings : Settings) (tree : FileTree) (input : Input) :
    Except Failure Assembly :=
  (({ settings } : Session).assembleInput tree input).2.result

namespace Session

variable {tree : FileTree} {input : Input}

theorem assembleInput_of_unreadable (s : Session) {f : Failure}
    (h : input.unreadable? tree = some f) :
    (s.assembleInput tree input).1 = s ∧ (s.assembleInput tree input).2.result = .error f := by
  cases input with
  | statements _ => cases h
  | lines _ _ => cases h
  | source _ _ => cases h
  | file path =>
    unfold Input.unreadable? at h
    cases hread : readText tree path with
    | ok text => simp only [hread] at h; cases h
    | error e =>
      simp only [hread] at h
      cases h
      exact s.assembleFile_of_error hread

theorem assembleInput_of_readable (s : Session) (h : input.unreadable? tree = none) :
    ∃ reading, ∀ t : Session, t.settings = s.settings →
      (t.assembleInput tree input).1 =
        { t with last := (Assembly.ofReading s.settings reading).toOption } ∧
      (t.assembleInput tree input).2.result = Assembly.ofReading s.settings reading := by
  cases input with
  | statements statements =>
    refine ⟨.ok statements, fun t ht => ?_⟩
    rw [← ht]
    exact ⟨t.assembleStatements_session _, t.assembleStatements_result _⟩
  | lines lines file =>
    refine ⟨SourceStatement.ofLines lines file, fun t ht => ?_⟩
    rw [← ht]
    exact ⟨t.assembleRead_session _ _ _, t.assembleRead_result _ _ _⟩
  | source text file =>
    refine ⟨SourceStatement.ofSource text file s.settings.commentChars, fun t ht => ?_⟩
    rw [← ht]
    exact ⟨t.assembleRead_session _ _ _, t.assembleRead_result _ _ _⟩
  | file path =>
    unfold Input.unreadable? at h
    cases hread : readText tree path with
    | error f => simp only [hread] at h; cases h
    | ok text =>
      refine ⟨SourceStatement.ofSource text (some path.text) s.settings.commentChars,
        fun t ht => ?_⟩
      obtain ⟨hsession, hresult⟩ := t.assembleFile_of_ok hread
      rw [← ht]
      exact ⟨hsession.trans (t.assembleRead_session _ _ _),
        hresult.trans (t.assembleRead_result _ _ _)⟩

/-- Nothing that a session holds bears on what comes of an input. -/
theorem assembleInput_result (s : Session) (tree : FileTree) (input : Input) :
    (s.assembleInput tree input).2.result = input.outcome s.settings tree := by
  cases h : input.unreadable? tree with
  | some f =>
    have hfresh := assembleInput_of_unreadable { settings := s.settings } h
    exact (s.assembleInput_of_unreadable h).2.trans hfresh.2.symm
  | none =>
    obtain ⟨reading, hread⟩ := s.assembleInput_of_readable h
    exact (hread s rfl).2.trans (hread { settings := s.settings } rfl).2.symm

theorem assembleInput_session (s : Session) (h : input.unreadable? tree = none) :
    (s.assembleInput tree input).1 =
      { s with last := (input.outcome s.settings tree).toOption } := by
  obtain ⟨reading, hread⟩ := s.assembleInput_of_readable h
  have houtcome := (hread s rfl).2.symm.trans (s.assembleInput_result tree input)
  rw [(hread s rfl).1, houtcome]

/-- A session that has assembled an input holds the result, and is otherwise as it was. -/
theorem assembleInput_of_ok (s : Session) {a : Assembly}
    (h : input.outcome s.settings tree = .ok a) :
    (s.assembleInput tree input).1 = { s with last := some a } := by
  cases hread : input.unreadable? tree with
  | none =>
    rw [s.assembleInput_session hread, h]
    rfl
  | some f =>
    have herror := (s.assembleInput_of_unreadable hread).2
    rw [s.assembleInput_result, h] at herror
    cases herror

end Session

/-- The files that a session writes. -/
inductive Printout where
  | object
  | listing
  | symbols

def Session.print (s : Session) (tree : FileTree) : Printout → String → FileTree × Reply Unit
  | .object => s.writeObject tree
  | .listing => s.writeListing tree
  | .symbols => s.writeSymbols tree

/-- What can happen to a session and to the files around it. -/
inductive Request where
  | assemble (input : Input)
  /-- A question, which is answered from the last result. -/
  | ask
  | print (printout : Printout) (path : String)
  /-- The files are changed from outside. -/
  | change (tree : FileTree)

/-- A session and the files around it. -/
structure Workspace where
  session : Session
  tree : FileTree

namespace Workspace

def step (w : Workspace) : Request → Workspace
  | .assemble input => { w with session := (w.session.assembleInput w.tree input).1 }
  | .ask => w
  | .print printout path => { w with tree := (w.session.print w.tree printout path).1 }
  | .change tree => { w with tree }

def run (w : Workspace) (history : List Request) : Workspace :=
  history.foldl step w

/-- What comes of a request to assemble, if its input can be read. -/
def outcome? (w : Workspace) : Request → Option (Except Failure Assembly)
  | .assemble input =>
    match input.unreadable? w.tree with
    | some _ => none
    | none => some (input.outcome w.session.settings w.tree)
  | _ => none

/-- What came of the programs that were read in the course of a history. -/
def outcomes (w : Workspace) : List Request → List (Except Failure Assembly)
  | [] => []
  | r :: rs => (w.outcome? r).toList ++ (w.step r).outcomes rs

theorem step_last (w : Workspace) (r : Request) :
    (w.step r).session.last = ((w.outcome? r).map Except.toOption).getD w.session.last := by
  cases r with
  | ask => rfl
  | print _ _ => rfl
  | change _ => rfl
  | assemble input =>
    unfold step outcome?
    cases h : input.unreadable? w.tree with
    | some f =>
      simp only [h, (w.session.assembleInput_of_unreadable h).1]
      rfl
    | none =>
      simp only [h, w.session.assembleInput_session h]
      rfl

/-- A session holds what came of the last program that it could read. -/
theorem run_last (w : Workspace) (history : List Request) :
    (w.run history).session.last =
      ((w.outcomes history).getLast?.map Except.toOption).getD w.session.last := by
  -- the workspace changes with each request, so the rest of the history starts from another one
  induction history generalizing w with
  | nil => rfl
  | cons r rs ih =>
    show ((w.step r).run rs).session.last = _
    rw [ih, step_last, outcomes]
    cases w.outcome? r with
    | none => rfl
    | some o =>
      show _ = (((o :: (w.step r).outcomes rs).getLast?).map Except.toOption).getD _
      rw [List.getLast?_cons]
      cases ((w.step r).outcomes rs).getLast? <;> rfl

end Workspace

/-- The answer of a session that has no result. -/
def noResult : Failure :=
  .fault (.diagnostic { problem := .noResult })

namespace Session

/-- A session that has nothing to tell: no question is answered, it knows of no warnings, and no
file is written. -/
structure Silent (s : Session) : Prop where
  asked : ∀ {α : Type} (answer : Assembly → α), s.result.map answer = .error noResult
  unwarned : s.hasWarnings = false
  printed : ∀ (tree : FileTree) (printout : Printout) (path : String),
    s.print tree printout path = (tree, ⟨[], .error noResult⟩)

theorem silent_iff {s : Session} : s.Silent ↔ s.last = none := by
  constructor
  · intro h
    have hasked := h.asked id
    unfold result at hasked
    cases hlast : s.last with
    | none => rfl
    | some a => rw [hlast] at hasked; cases hasked
  · intro h
    have hresult : s.result = .error noResult := by
      unfold result
      rw [h]
      rfl
    refine ⟨?_, ?_, ?_⟩
    · intro α answer
      rw [hresult]
      rfl
    · unfold hasWarnings
      rw [h]
    · intro tree printout path
      cases printout <;>
        simp only [print, writeObject, writeListing, writeSymbols, write, hresult]

end Session

namespace Workspace

section Failed

variable {w : Workspace} {input : Input} {f : Failure}

theorem step_of_unreadable (h : input.unreadable? w.tree = some f) :
    w.step (.assemble input) = w := by
  show { w with session := (w.session.assembleInput w.tree input).1 } = w
  rw [(w.session.assembleInput_of_unreadable h).1]

theorem silent_of_readable (h : input.unreadable? w.tree = none)
    (hf : (w.session.assembleInput w.tree input).2.result = .error f) :
    (w.step (.assemble input)).session.Silent := by
  rw [Session.silent_iff]
  show (w.session.assembleInput w.tree input).1.last = none
  rw [w.session.assembleInput_session h, ← w.session.assembleInput_result, hf]
  rfl

end Failed

theorem silent_run_iff {w : Workspace} (hw : w.session.last = none) (history : List Request) :
    (w.run history).session.Silent ↔ ∀ a, (w.outcomes history).getLast? ≠ some (.ok a) := by
  rw [Session.silent_iff, run_last, hw]
  cases (w.outcomes history).getLast? with
  | none => exact ⟨fun _ _ => nofun, fun _ => rfl⟩
  | some o =>
    cases o with
    | error e => exact ⟨fun _ _ => nofun, fun _ => rfl⟩
    | ok a =>
      show some a = none ↔ _
      constructor
      · intro hnone
        cases hnone
      · intro hnone
        exact absurd rfl (hnone a)

/-- What a failed request leaves behind, after any history of a new session. The session has nothing
to tell if the input was read, or if there was nothing to tell before: no program was read, or the
last one that was read failed. A file that cannot be read leaves all as it was. -/
theorem silent_after_failure_iff (settings : Settings) (verbose : Bool) (tree : FileTree)
    (history : List Request) (input : Input) {w : Workspace} {f : Failure}
    (hw : w = run ⟨{ settings, verbose }, tree⟩ history)
    (hf : (w.session.assembleInput w.tree input).2.result = .error f) :
    noResult.message = "error: no assembly result available" ∧
    ((w.step (.assemble input)).session.Silent ↔
      input.unreadable? w.tree = none ∨
        ∀ a, (outcomes ⟨{ settings, verbose }, tree⟩ history).getLast? ≠ some (.ok a)) ∧
    ∀ e, input.unreadable? w.tree = some e → e = f ∧ w.step (.assemble input) = w := by
  have hbefore : w.session.Silent ↔
      ∀ a, (outcomes ⟨{ settings, verbose }, tree⟩ history).getLast? ≠ some (.ok a) := by
    rw [hw]
    exact silent_run_iff rfl history
  refine ⟨rfl, ?_⟩
  cases h : input.unreadable? w.tree with
  | none =>
    refine ⟨⟨fun _ => Or.inl rfl, fun _ => silent_of_readable h hf⟩, ?_⟩
    intro e he
    cases he
  | some e =>
    have hresult := (w.session.assembleInput_of_unreadable h).2
    rw [hf] at hresult
    -- nothing has changed, so the session is silent now if it was before
    rw [step_of_unreadable h, hbefore]
    refine ⟨⟨Or.inr, fun hsilent => hsilent.resolve_left (by simp)⟩, ?_⟩
    intro e' he
    exact ⟨Option.some.inj he ▸ (Except.error.inj hresult).symm, rfl⟩

/-- A session that has assembled one word, in an empty directory. -/
def afterOneWord : Workspace :=
  run ⟨{}, ⟨[], [], []⟩⟩ [.assemble (.lines [.text "A DEC 0"] (some defaultFile))]

theorem silent_after_unknown_mnemonic :
    (afterOneWord.session.assembleInput afterOneWord.tree
      (.source "dec 0" (some defaultFile))).2.result =
        .error (.fault (.diagnostic ⟨.unknownMnemonic "dec",
          ⟨some ⟨some defaultFile, some 1, 1⟩, some "dec 0"⟩⟩)) ∧
    (afterOneWord.step (.assemble (.source "dec 0" (some defaultFile)))).session.Silent := by
  have hf : (afterOneWord.session.assembleInput afterOneWord.tree
      (.source "dec 0" (some defaultFile))).2.result =
        .error (.fault (.diagnostic ⟨.unknownMnemonic "dec",
          ⟨some ⟨some defaultFile, some 1, 1⟩, some "dec 0"⟩⟩)) := rfl
  exact ⟨hf, (silent_after_failure_iff {} false ⟨[], [], []⟩ _ _ rfl hf).2.1.2 (Or.inl rfl)⟩

/-- A failed request can leave the former result. -/
theorem missing_file_keeps_result :
    (afterOneWord.session.assembleInput afterOneWord.tree
      (.file (Path.ofString "missing.asm"))).2.result =
        .error (.file (.refused (FileErrorKind.at .missing "missing.asm"))) ∧
    (afterOneWord.step (.assemble (.file (Path.ofString "missing.asm")))).session.result.map
      (fun a => a.cells.map fun c => (c.address, c.word)) = .ok [(0, 0)] :=
  ⟨rfl, rfl⟩

end Workspace

end TwoPass
