import TwoPass.Proofs.Deliveries
import TwoPass.Proofs.Sessions

/-!
# Commands and files

The command changes no file but those that it was asked to write, and never its input. If the input
cannot be assembled, or one of the files to be written is the input, it changes nothing and says so
by its exit code. If it succeeds, the files hold what was asked for, unless two of them are one.
-/

namespace TwoPass

namespace Text

theorem plainFrom_of_no_escape (done : List Char) {cs : List Char} (h : escape ∉ cs) :
    plainFrom done [] cs = done.reverse ++ cs := by
  induction cs generalizing done with
  | nil => rw [plainFrom, List.nil_append, List.append_nil]
  | cons c cs ih =>
    rw [List.mem_cons, not_or] at h
    have hc : (c == escape) = false := by simpa using Ne.symm h.1
    -- no sequence has begun, so none is carried on and none is finished
    show (if c == escape then _ else plainFrom (c :: ([] ++ done)) [] cs) = _
    rw [hc, if_neg Bool.false_ne_true, ih _ h.2, List.nil_append, List.reverse_cons,
      List.append_assoc, List.singleton_append]

theorem plain_of_no_escape {s : String} (h : escape ∉ s.toList) : plain s = s := by
  unfold plain
  rw [plainFrom_of_no_escape [] h, List.reverse_nil, List.nil_append, String.ofList_toList]

end Text

namespace Command

/-- The request that arguments make. They make none if they are wrong, or if they ask the command
about itself. -/
def requested? (tree : FileTree) (args : List String) : Option Request :=
  match Arguments.parse args with
  | .error _ => none
  | .ok a =>
    match a.information? with
    | some _ => none
    | none => (a.request tree).toOption

/-- The text about itself that the command is asked for. -/
def informed? (args : List String) : Option String :=
  (Arguments.parse args).toOption.bind Arguments.information?

theorem Trouble.exitCode_ne_success (t : Trouble) : t.exitCode ≠ .success := by
  cases t with
  | file e =>
    unfold exitCode
    cases hkind : e.kind <;> simp [hkind]
  | diagnostic _ | rejection _ | parameter _ | unexpected _ => simp [exitCode]

theorem exists_read_of_outcome {settings : Settings} {tree : FileTree} {path : Path} {a : Assembly}
    (h : (Input.file path).outcome settings tree = .ok a) :
    ∃ bytes, tree.read path = .ok bytes := by
  cases hread : tree.read path with
  | ok bytes => exact ⟨bytes, rfl⟩
  | error e =>
    have htext : Session.readText tree path = .error (.file e) := by
      unfold Session.readText
      rw [hread]
    have herror := (Session.assembleFile_of_error { settings } htext).2
    unfold Input.outcome Session.assembleInput at h
    rw [herror] at h
    cases h

theorem standardError_warnings (ws : List Warning) :
    standardError (ws.map fun w => complain w.message) =
      String.join (ws.map fun w => Text.plain w.message ++ "\n") := by
  unfold standardError complain
  rw [List.filterMap_map]
  exact congrArg String.join (congrFun List.filterMap_eq_map ws)

namespace Request

/-- The files that a request asks for: the object file unless the words are printed, the listing
and the symbol file. -/
def Targets (r : Request) (p : Path) : Prop :=
  (r.print = false ∧ p = r.objectPath) ∨ r.listing = some p ∨ r.symbols = some p

/-- The changes of settings that a request asks for. -/
def changes (r : Request) : List Settings.Change :=
  r.strictLabels.toList.map .strictLabels ++ r.allowRebinding.toList.map .allowRebinding

variable {environment : String → Option String} {tree : FileTree} {r : Request}

theorem override_changes (r : Request) (environment : String → Option String) :
    (Settings.ofEnvironment environment).override r.changes = .ok (r.settings environment) := by
  unfold changes settings
  cases r.strictLabels <;> cases r.allowRebinding <;> rfl

theorem mem_targetPaths_iff {p : Path} : p ∈ r.targetPaths ↔ r.Targets p := by
  unfold targetPaths Targets
  -- the object file comes last among the paths, though it is written first
  rw [List.mem_append, List.mem_append, Option.mem_toList, Option.mem_toList, or_comm]
  cases r.print <;> simp

theorem targets_of_writes {d : Delivery} {a : Assembly} {p : Path} {text : String}
    (hd : d ∈ r.deliveries) (hwrites : d.writes? a = some (p, text)) : r.Targets p := by
  simp only [deliveries, List.mem_append, List.mem_singleton, Option.mem_toList,
    Option.map_eq_some_iff] at hd
  rcases hd with (rfl | ⟨q, hq, rfl⟩) | ⟨q, hq, rfl⟩
  · cases hprint : r.print with
    | true =>
      -- the words are printed, which writes no file
      rw [hprint] at hwrites
      cases hwrites
    | false =>
      rw [hprint] at hwrites
      cases hwrites
      exact .inl ⟨hprint, rfl⟩
  · cases hwrites
    exact .inr (.inl hq)
  · cases hwrites
    exact .inr (.inr hq)

/-- A request whose files are read again from their texts. -/
def WellAddressed (r : Request) : Prop :=
  ∀ p, r.Targets p → p.WellFormed

theorem WellAddressed.deliveries (h : r.WellAddressed) (a : Assembly) :
    Command.WellAddressed a r.deliveries :=
  fun _ hd p _ hwrites => h p (targets_of_writes hd hwrites)

/-- A request none of whose files is its input. -/
def SparesInput (tree : FileTree) (r : Request) : Prop :=
  ∀ p, r.Targets p → tree.resolve p ≠ tree.resolve r.input

/-- The deliveries of what the input was assembled to. -/
def delivered (environment : String → Option String) (tree : FileTree) (r : Request)
    (a : Assembly) : Delivered :=
  deliverAll { settings := r.settings environment, verbose := r.verbose, last := some a } a tree
    r.deliveries

theorem sameDirectories_delivered (h : r.WellAddressed) (a : Assembly) :
    tree.SameDirectories (r.delivered environment tree a).tree :=
  sameDirectories_deliverAll rfl tree (h.deliveries a)

theorem file?_delivered (h : r.WellAddressed) (a : Assembly) {place : Place}
    (hplace : ∀ p, r.Targets p → tree.Usable p → tree.resolve p ≠ place) :
    (r.delivered environment tree a).tree.file? place = tree.file? place := by
  apply file?_deliverAll rfl tree (h.deliveries a)
  intro d hd p text hwrites
  exact hplace p (targets_of_writes hd hwrites)

/-- What can come of a request. -/
inductive Brings (environment : String → Option String) (tree : FileTree) (r : Request)
    (outcome : Outcome) : Prop
  | refusal {p : Path} : r.Targets p → tree.resolve p = tree.resolve r.input →
      outcome.tree = tree → outcome.exitCode ≠ .success → Brings environment tree r outcome
  | failure {f : Failure} : r.SparesInput tree →
      (Input.file r.input).outcome (r.settings environment) tree = .error f →
      outcome.tree = tree → outcome.exitCode ≠ .success → Brings environment tree r outcome
  | deliveries {a : Assembly} : r.SparesInput tree →
      (Input.file r.input).outcome (r.settings environment) tree = .ok a →
      outcome.tree = (r.delivered environment tree a).tree →
      (outcome.exitCode = .success → (r.delivered environment tree a).trouble = none ∧
        (r.verbose = false → outcome.outputs = (a.warnings.map fun w => complain w.message) ++
          (r.delivered environment tree a).outputs)) → Brings environment tree r outcome

theorem sparesInput_of_overwriting? (h : r.overwriting? tree = none) : r.SparesInput tree := by
  intro p hp heq
  have hnot := List.find?_eq_none.1 h p (mem_targetPaths_iff.2 hp)
  exact hnot (beq_iff_eq.2 heq)

theorem perform_brings (environment : String → Option String) (tree : FileTree) (r : Request) :
    r.Brings environment tree (r.perform environment tree) := by
  unfold perform
  cases hover : r.overwriting? tree with
  | some p =>
    have hmem : p ∈ r.targetPaths := List.mem_of_find?_eq_some hover
    have hfound := List.find?_some hover
    refine .refusal (mem_targetPaths_iff.1 hmem) (beq_iff_eq.1 hfound) rfl ?_
    show ExitCode.unusable ≠ .success
    decide
  | none =>
    have hspares := sparesInput_of_overwriting? hover
    have hresult := Session.assembleInput_result
      { settings := r.settings environment, verbose := r.verbose } tree (.file r.input)
    rw [Session.assembleInput] at hresult
    dsimp only
    rw [hresult]
    cases houtcome : (Input.file r.input).outcome (r.settings environment) tree with
    | error f => exact .failure hspares houtcome rfl (Trouble.exitCode_ne_success _)
    | ok a =>
      have hsession := Session.assembleInput_of_ok
        { settings := r.settings environment, verbose := r.verbose } houtcome
      rw [Session.assembleInput] at hsession
      dsimp only
      rw [hsession]
      -- from here on nothing can fail but a delivery
      cases htrouble : (r.delivered environment tree a).trouble with
      | some t =>
        unfold delivered at htrouble
        rw [htrouble]
        exact .deliveries hspares houtcome rfl fun hexit =>
          absurd hexit (Trouble.exitCode_ne_success t)
      | none =>
        have hdone := htrouble
        unfold delivered at htrouble
        rw [htrouble]
        refine .deliveries hspares houtcome rfl fun _ => ⟨hdone, ?_⟩
        intro hquiet
        -- without the lines of a verbose command, the warnings and the deliveries are left
        simp only [hquiet, tellIf, log, delivered, Bool.false_eq_true, if_false, List.nil_append,
          List.append_nil]

namespace Brings

variable {outcome : Outcome} (h : r.Brings environment tree outcome)

include h

theorem sameDirectories (hr : r.WellAddressed) : tree.SameDirectories outcome.tree := by
  cases h with
  | refusal _ _ htree | failure _ _ htree =>
    rw [htree]
    exact .refl tree
  | @deliveries a _ _ htree =>
    rw [htree]
    exact sameDirectories_delivered hr a

/-- A request changes no file that it does not ask for. -/
theorem file?_eq (hr : r.WellAddressed) {place : Place}
    (hplace : ∀ p, r.Targets p → tree.locate p ≠ .ok place) :
    outcome.tree.file? place = tree.file? place := by
  cases h with
  | refusal _ _ htree | failure _ _ htree => rw [htree]
  | @deliveries a _ _ htree =>
    rw [htree]
    apply file?_delivered hr a
    intro p hp husable heq
    apply hplace p hp
    rw [husable.located, heq]

theorem read_input (hr : r.WellAddressed) : outcome.tree.read r.input = tree.read r.input := by
  cases h with
  | refusal _ _ htree | failure _ _ htree => rw [htree]
  | @deliveries a hspares houtcome htree =>
    -- the input was assembled, so it can be read, and no delivery goes to its place
    obtain ⟨bytes, hread⟩ := exists_read_of_outcome houtcome
    have hsame := @sameDirectories_delivered environment tree r hr a
    obtain ⟨husable, hfile⟩ := FileTree.read_eq_ok_iff.1 hread
    rw [hread, htree, FileTree.read_eq_ok_iff]
    refine ⟨hsame.usable husable, ?_⟩
    rw [hsame.resolve, file?_delivered hr a, hfile]
    intro p hp _
    exact hspares p hp

/-- A request that cannot be met as it stands changes nothing. -/
theorem unchanged
    (hfault : (∃ f, (Input.file r.input).outcome (r.settings environment) tree = .error f) ∨
      ∃ p, r.Targets p ∧ tree.resolve p = tree.resolve r.input) :
    outcome.tree = tree ∧ outcome.exitCode ≠ .success := by
  cases h with
  | refusal _ _ htree hexit | failure _ _ htree hexit => exact ⟨htree, hexit⟩
  | deliveries hspares houtcome =>
    rcases hfault with ⟨f, hf⟩ | ⟨p, hp, heq⟩
    · rw [houtcome] at hf
      cases hf
    · exact absurd heq (hspares p hp)

end Brings

section Delivered

variable {a : Assembly} (hr : r.WellAddressed)
  (htrouble : (r.delivered environment tree a).trouble = none)

include hr htrouble

/-- Where nothing goes wrong, each file holds what is delivered to it, unless something is delivered
to the same place after it. -/
theorem read_delivered {before after : List Delivery} {d : Delivery} {p : Path} {text : String}
    (hsplit : r.deliveries = before ++ d :: after) (hd : d.writes? a = some (p, text))
    (hlater : ∀ d' ∈ after, ∀ p' text', d'.writes? a = some (p', text') →
      tree.resolve p' ≠ tree.resolve p) :
    (r.delivered environment tree a).tree.read p = .ok text.toUTF8 := by
  have haddressed := hr.deliveries a
  unfold delivered at htrouble ⊢
  rw [hsplit] at haddressed htrouble ⊢
  exact deliverAll_delivers rfl haddressed htrouble hd hlater

theorem read_objectPath (hprint : r.print = false)
    (hlater : ∀ p, r.listing = some p ∨ r.symbols = some p →
      tree.resolve p ≠ tree.resolve r.objectPath) :
    (r.delivered environment tree a).tree.read r.objectPath = .ok a.objectFile.toUTF8 := by
  have hsplit : r.deliveries = [] ++ .object r.objectPath ::
      ((r.listing.map .listing).toList ++ (r.symbols.map .symbols).toList) := by
    unfold deliveries
    rw [hprint]
    rfl
  apply read_delivered hr htrouble hsplit rfl
  intro d hd p text hwrites
  simp only [List.mem_append, Option.mem_toList, Option.map_eq_some_iff] at hd
  rcases hd with ⟨q, hq, rfl⟩ | ⟨q, hq, rfl⟩
  · cases hwrites
    exact hlater p (.inl hq)
  · cases hwrites
    exact hlater p (.inr hq)

theorem read_listing {p : Path} (hp : r.listing = some p)
    (hlater : ∀ q, r.symbols = some q → tree.resolve q ≠ tree.resolve p) :
    (r.delivered environment tree a).tree.read p = .ok a.listing.toUTF8 := by
  have hsplit : r.deliveries = [if r.print then .words else .object r.objectPath] ++
      .listing p :: (r.symbols.map .symbols).toList := by
    unfold deliveries
    rw [hp]
    rfl
  apply read_delivered hr htrouble hsplit rfl
  intro d hd q text hwrites
  rw [Option.mem_toList, Option.map_eq_some_iff] at hd
  obtain ⟨q', hq', rfl⟩ := hd
  cases hwrites
  exact hlater q hq'

theorem read_symbols {p : Path} (hp : r.symbols = some p) :
    (r.delivered environment tree a).tree.read p = .ok a.symbolFile.toUTF8 := by
  have hsplit : r.deliveries = ([if r.print then .words else .object r.objectPath] ++
      (r.listing.map .listing).toList) ++ .symbols p :: [] := by
    unfold deliveries
    rw [hp]
    rfl
  apply read_delivered hr htrouble hsplit rfl
  intro d hd
  cases hd

end Delivered

end Request

section Run

variable {environment : String → Option String} {tree : FileTree} {args : List String}
  {outcome : Outcome} {r : Request}

theorem Arguments.wellAddressed_of_request {a : Arguments} (h : a.request tree = .ok r) :
    r.WellAddressed := by
  unfold Arguments.request at h
  split at h
  · cases h
  · split at h
    · cases h
    · rename_i input hinput
      cases h
      -- the input was read from a text, and so was every file but an object file that has its
      -- name from the input
      have hin : input.WellFormed := by
        unfold Arguments.input at hinput
        split at hinput
        · cases hinput
        · split at hinput
          · cases hinput
          · cases hinput
          · cases hinput
          · split at hinput
            · cases hinput
              exact Path.wellFormed_ofString _
            · cases hinput
      rintro p (⟨-, rfl⟩ | hp | hp)
      · unfold Request.objectPath
        cases a.path? .output with
        | none => exact Path.wellFormed_withSuffix hin
        | some path => exact Path.wellFormed_ofString path
      · obtain ⟨path, -, rfl⟩ := Option.map_eq_some_iff.1 hp
        exact Path.wellFormed_ofString path
      · obtain ⟨path, -, rfl⟩ := Option.map_eq_some_iff.1 hp
        exact Path.wellFormed_ofString path

/-- The command does what it is asked. -/
theorem run_of_requested (hr : requested? tree args = some r) :
    run environment tree args = .ok (r.perform environment tree) ∧ r.WellAddressed := by
  unfold requested? at hr
  unfold run
  cases hparse : Arguments.parse args with
  | error e =>
    rw [hparse] at hr
    cases hr
  | ok a =>
    rw [hparse] at hr
    dsimp only at hr ⊢
    cases hinfo : a.information? with
    | some text =>
      rw [hinfo] at hr
      cases hr
    | none =>
      rw [hinfo] at hr
      dsimp only at hr ⊢
      cases hrequest : a.request tree with
      | error e =>
        rw [hrequest] at hr
        cases hr
      | ok r' =>
        rw [hrequest] at hr
        cases hr
        exact ⟨rfl, Arguments.wellAddressed_of_request hrequest⟩

/-- A command that is asked for nothing changes nothing, and succeeds if it tells about itself. -/
theorem run_of_not_requested (h : run environment tree args = .ok outcome)
    (hr : requested? tree args = none) :
    outcome.tree = tree ∧ (outcome.exitCode = .success ↔ (informed? args).isSome) := by
  unfold requested? at hr
  unfold run at h
  unfold informed?
  cases hparse : Arguments.parse args with
  | error e =>
    rw [hparse] at h
    cases h
    simp [Except.toOption]
  | ok a =>
    rw [hparse] at h hr
    dsimp only at h hr
    show _ ∧ (_ ↔ a.information?.isSome)
    cases hinfo : a.information? with
    | some text =>
      rw [hinfo] at h
      cases h
      simp
    | none =>
      rw [hinfo] at h hr
      dsimp only at h hr
      cases hrequest : a.request tree with
      | ok r =>
        rw [hrequest] at hr
        cases hr
      | error e =>
        rw [hrequest] at h
        cases e with
        | nul e =>
          -- the command has broken off without an outcome
          cases h
        | usage e =>
          cases h
          simp

/-- The command protects files. It leaves the directories as they are. Without a request it changes
nothing, and it succeeds only in telling about itself. With one it leaves the input as it was, and
every file that the request does not ask for; and it changes nothing, and fails, if the input cannot
be assembled or is one of the files to be written. -/
theorem run_protects_files (h : run environment tree args = .ok outcome) :
    tree.SameDirectories outcome.tree ∧
    (requested? tree args = none →
      outcome.tree = tree ∧ (outcome.exitCode = .success ↔ (informed? args).isSome)) ∧
    ∀ r, requested? tree args = some r →
      outcome.tree.read r.input = tree.read r.input ∧
      (∀ place, (∀ p, r.Targets p → tree.locate p ≠ .ok place) →
        outcome.tree.file? place = tree.file? place) ∧
      ((∃ f, (Input.file r.input).outcome (r.settings environment) tree = .error f) ∨
        (∃ p, r.Targets p ∧ tree.resolve p = tree.resolve r.input) →
        outcome.tree = tree ∧ outcome.exitCode ≠ .success) := by
  cases hr : requested? tree args with
  | none =>
    have hnothing := run_of_not_requested h hr
    refine ⟨?_, fun _ => hnothing, nofun⟩
    rw [hnothing.1]
    exact .refl tree
  | some r =>
    obtain ⟨hrun, haddressed⟩ := @run_of_requested environment tree args r hr
    rw [hrun] at h
    cases h
    have hbrings := r.perform_brings environment tree
    refine ⟨hbrings.sameDirectories haddressed, nofun, ?_⟩
    rintro r' ⟨⟩
    exact ⟨hbrings.read_input haddressed, fun _ => hbrings.file?_eq haddressed, hbrings.unchanged⟩

/-- A directory with a program that uses an unknown label, and a file beside it. -/
def twoFiles : FileTree :=
  ⟨[], [], [(["p.asm"], "LDA X\n".toUTF8), (["notes"], "keep".toUTF8)]⟩

-- the listing is to be written to the input, which is named in another way
theorem run_protects_files_of_twoFiles :
    ∃ outcome r, run (fun _ => none) twoFiles ["p.asm", "-l", "q/../p.asm"] = .ok outcome ∧
      requested? twoFiles ["p.asm", "-l", "q/../p.asm"] = some r ∧
      r.Targets (Path.ofString "q/../p.asm") ∧
      outcome.tree = twoFiles ∧ outcome.exitCode ≠ .success ∧
      outcome.tree.read r.input = .ok "LDA X\n".toUTF8 := by
  have hr : requested? twoFiles ["p.asm", "-l", "q/../p.asm"] =
      some { input := Path.ofString "p.asm", listing := some (Path.ofString "q/../p.asm") } := by
    decide +kernel
  obtain ⟨hrun, -⟩ := @run_of_requested (fun _ => none) _ _ _ hr
  obtain ⟨-, -, hprotects⟩ := run_protects_files hrun
  obtain ⟨hread, -, hunchanged⟩ := hprotects _ hr
  obtain ⟨htree, hexit⟩ := hunchanged (.inr ⟨_, .inr (.inl rfl), by decide +kernel⟩)
  exact ⟨_, _, hrun, hr, .inr (.inl rfl), htree, hexit, hread.trans rfl⟩

/-- What a successful command delivers. With the settings of the environment, overridden by the
options, the input can be assembled. The object file, unless the words are printed, the listing and
the symbol file hold what they are to hold, unless a file that is written later is the same. If the
command is not verbose, it prints the warnings in order on the standard error, one to a line and
without their control sequences, and nothing else. -/
theorem run_delivers (h : run environment tree args = .ok outcome)
    (hr : requested? tree args = some r) (hexit : outcome.exitCode = .success) :
    ∃ settings a,
      (Settings.ofEnvironment environment).override r.changes = .ok settings ∧
      (Input.file r.input).outcome settings tree = .ok a ∧
      (r.print = false →
        (∀ p, r.listing = some p ∨ r.symbols = some p →
          tree.resolve p ≠ tree.resolve r.objectPath) →
        outcome.tree.read r.objectPath = .ok a.objectFile.toUTF8) ∧
      (∀ p, r.listing = some p →
        (∀ q, r.symbols = some q → tree.resolve q ≠ tree.resolve p) →
        outcome.tree.read p = .ok a.listing.toUTF8) ∧
      (∀ p, r.symbols = some p → outcome.tree.read p = .ok a.symbolFile.toUTF8) ∧
      (r.verbose = false →
        standardError outcome.outputs =
          String.join (a.warnings.map fun w => Text.plain w.message ++ "\n") ∧
        ((∀ w ∈ a.warnings, Text.escape ∉ w.message.toList) →
          standardError outcome.outputs =
            String.join (a.warnings.map fun w => w.message ++ "\n"))) := by
  obtain ⟨hrun, haddressed⟩ := @run_of_requested environment tree args r hr
  rw [hrun] at h
  cases h
  cases r.perform_brings environment tree with
  | refusal _ _ _ hfails | failure _ _ _ hfails => exact absurd hexit hfails
  | @deliveries a _ houtcome htree hsuccess =>
    obtain ⟨htrouble, houtputs⟩ := hsuccess hexit
    refine ⟨r.settings environment, a, r.override_changes environment, houtcome, ?_⟩
    rw [htree]
    refine ⟨Request.read_objectPath haddressed htrouble, fun _ =>
      Request.read_listing haddressed htrouble, fun _ =>
      Request.read_symbols haddressed htrouble, ?_⟩
    intro hquiet
    have hwarnings : standardError (r.perform environment tree).outputs =
        String.join (a.warnings.map fun w => Text.plain w.message ++ "\n") := by
      rw [houtputs hquiet, standardError_append, standardError_warnings, Request.delivered,
        standardError_deliverAll hquiet, String.append_empty]
    refine ⟨hwarnings, ?_⟩
    intro hplain
    rw [hwarnings]
    apply congrArg String.join
    apply List.map_congr_left
    intro w hw
    rw [Text.plain_of_no_escape (hplain w hw)]

/-- The request for all that can be made of a program. -/
def allOutputs : Request :=
  { input := Path.ofString "p.asm", listing := some (Path.ofString "p.lst"),
    symbols := some (Path.ofString "p.sym") }

theorem run_delivers_of_allOutputs :
    requested? twoFiles ["p.asm", "-l", "p.lst", "-s", "p.sym"] = some allOutputs ∧
    allOutputs.objectPath = Path.ofString "p.obj" ∧
    ∃ outcome a,
      run (fun _ => none) twoFiles ["p.asm", "-l", "p.lst", "-s", "p.sym"] = .ok outcome ∧
      outcome.exitCode = .success ∧
      (Input.file allOutputs.input).outcome {} twoFiles = .ok a ∧
      outcome.tree.read allOutputs.objectPath = .ok a.objectFile.toUTF8 ∧
      outcome.tree.read (Path.ofString "p.lst") = .ok a.listing.toUTF8 ∧
      outcome.tree.read (Path.ofString "p.sym") = .ok a.symbolFile.toUTF8 ∧
      standardError outcome.outputs =
        String.join (a.warnings.map fun w => Text.plain w.message ++ "\n") := by
  have hr : requested? twoFiles ["p.asm", "-l", "p.lst", "-s", "p.sym"] = some allOutputs := by
    decide +kernel
  have hobjectPath : allOutputs.objectPath = Path.ofString "p.obj" := by decide +kernel
  have hexit : (allOutputs.perform (fun _ => none) twoFiles).exitCode = .success := by
    decide +kernel
  obtain ⟨hrun, -⟩ := @run_of_requested (fun _ => none) _ _ _ hr
  obtain ⟨settings, a, hsettings, ha, hobject, hlisting, hsymbols, herror⟩ :=
    run_delivers hrun hr hexit
  obtain rfl : {} = settings := Except.ok.inj hsettings
  -- the three files are at three places
  refine ⟨hr, hobjectPath, _, a, hrun, hexit, ha, hobject rfl ?_, hlisting _ rfl ?_,
    hsymbols _ rfl, (herror rfl).1⟩
  · rw [hobjectPath]
    rintro p (⟨⟨⟩⟩ | ⟨⟨⟩⟩) <;> decide +kernel
  · rintro q ⟨⟩
    decide +kernel

/-- A program that uses an unknown label with a control sequence in it. -/
def colouredFile : FileTree :=
  ⟨[], [], [(["p.asm"], "LDA \x1b[31mX\n".toUTF8)]⟩

/-- The request for a listing in the place of the object file. -/
def listingForObject : Request :=
  { input := Path.ofString "p.asm", listing := some (Path.ofString "p.obj") }

/-- A successful command can lose an output, here the object file to the listing. It can print less
than the warnings, too, as their control sequences are dropped. -/
theorem success_loses_output :
    requested? colouredFile ["p.asm", "-l", "p.obj"] = some listingForObject ∧
    listingForObject.print = false ∧ listingForObject.verbose = false ∧
    ∃ outcome a,
      run (fun _ => none) colouredFile ["p.asm", "-l", "p.obj"] = .ok outcome ∧
      outcome.exitCode = .success ∧
      (Input.file listingForObject.input).outcome {} colouredFile = .ok a ∧
      outcome.tree.read listingForObject.objectPath ≠ .ok a.objectFile.toUTF8 ∧
      standardError outcome.outputs ≠ String.join (a.warnings.map fun w => w.message ++ "\n") := by
  have hr : requested? colouredFile ["p.asm", "-l", "p.obj"] = some listingForObject := by
    decide +kernel
  obtain ⟨hrun, -⟩ := @run_of_requested (fun _ => none) _ _ _ hr
  have hexit : (listingForObject.perform (fun _ => none) colouredFile).exitCode = .success := by
    decide +kernel
  have hdiffer : ((Input.file listingForObject.input).outcome {} colouredFile).toOption.map
      (fun a => (((listingForObject.perform (fun _ => none) colouredFile).tree.read
          listingForObject.objectPath).toOption.map (·.data) == some a.objectFile.toUTF8.data,
        standardError (listingForObject.perform (fun _ => none) colouredFile).outputs ==
          String.join (a.warnings.map fun w => w.message ++ "\n"))) = some (false, false) := by
    decide +kernel
  cases ha : (Input.file listingForObject.input).outcome {} colouredFile with
  | error f =>
    rw [ha] at hdiffer
    cases hdiffer
  | ok a =>
    rw [ha] at hdiffer
    obtain ⟨hobject, herror⟩ := Prod.mk.inj (Option.some.inj hdiffer)
    refine ⟨hr, rfl, rfl, _, a, hrun, hexit, rfl, ?_, ne_of_beq_false herror⟩
    intro hread
    rw [hread] at hobject
    exact ne_of_beq_false hobject rfl

end Run

end Command

end TwoPass
