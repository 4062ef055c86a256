import Mathlib.Data.List.Induction
import TwoPass.Proofs.Comparison

/-!
# Histories of passes

The passes may be run over one assembly in any order, any number of times, and with other settings
each time; a pass that fails leaves the assembly as it was. Settings decide only whether a pass
succeeds, so whatever the history, the labels are those of the program, and words that were stored
once stay the words that these labels give.
-/

namespace TwoPass

/-- Settings that tolerate whatever any settings do. -/
def Settings.lenient : Settings :=
  { allowRebinding := true }

theorem Settings.lenient_tolerates (settings : Settings) : lenient.Tolerates settings :=
  ⟨nofun, fun _ => rfl⟩

namespace Assembly

/-- The labels that a first pass over a program leaves, if one succeeds. -/
def tableOf (p : List SourceStatement) : LabelTable :=
  (Layout.run .lenient p).state.labels.close

/-- The words that a second pass over a program stores, if one succeeds. -/
def cellsOf (p : List SourceStatement) : List Cell :=
  (Emission.run .lenient (tableOf p) p).events.filterMap (·.cell)

section Passes

variable {settings : Settings} {a b : Assembly}

theorem labels_of_layOut (h : a.layOut settings = .ok b) : b.labels = tableOf a.statements := by
  have hlenient := layOut_of_tolerates (Settings.lenient_tolerates settings) h
  rw [(layOut_eq_ok_iff.1 hlenient).2]
  rfl

theorem cells_of_emit (h : a.emit settings = .ok b) (hlabels : a.labels = tableOf a.statements) :
    b.cells = cellsOf a.statements := by
  have hlenient := emit_of_tolerates (Settings.lenient_tolerates settings) h
  rw [(emit_eq_ok_iff.1 hlenient).2.2]
  show (Emission.run .lenient a.labels a.statements).events.filterMap (·.cell) = _
  rw [hlabels]
  rfl

theorem emit_of_open (h : a.labels.isClosed = false) :
    a.emit settings = .error (.diagnostic { problem := .tableOpen }) := by
  unfold emit
  rw [h]
  rfl

end Passes

/-- A pass, and the settings that it is run with. -/
inductive Action where
  | layOut (settings : Settings)
  | emit (settings : Settings)
  deriving DecidableEq, Repr

def Action.run (a : Assembly) : Action → Except Fault Assembly
  | .layOut settings => (a.layOut settings).mapError .diagnostic
  | .emit settings => a.emit settings

/-- The assembly after a pass. One that fails changes nothing. -/
def after (a : Assembly) (action : Action) : Assembly :=
  (action.run a).toOption.getD a

/-- The assembly of a program after a history of passes. -/
def reached (p : List SourceStatement) (history : List Action) : Assembly :=
  history.foldl after (ofStatements p)

/-- In a history over a program, the pass at index `i` succeeds with the result `r`. -/
structure Succeeded (p : List SourceStatement) (history : List Action) (i : Nat) (action : Action)
    (r : Assembly) : Prop where
  chosen : history[i]? = some action
  result : action.run (reached p (history.take i)) = .ok r

section Step

variable {settings : Settings} {a r : Assembly} {action : Action}

theorem run_layOut_eq_ok_iff :
    (Action.layOut settings).run a = .ok r ↔ a.layOut settings = .ok r := by
  show (a.layOut settings).mapError Fault.diagnostic = .ok r ↔ _
  cases a.layOut settings <;> simp [Except.mapError]

theorem after_of_ok (h : action.run a = .ok r) : a.after action = r := by
  unfold after
  rw [h]
  rfl

theorem after_of_error {f : Fault} (h : action.run a = .error f) : a.after action = a := by
  unfold after
  rw [h]
  rfl

/-- What a pass can do to an assembly: nothing, or what a pass that succeeds does. -/
theorem after_cases (a : Assembly) (action : Action) :
    a.after action = a ∨
      (∃ settings, action = .layOut settings ∧ a.layOut settings = .ok (a.after action)) ∨
      ∃ settings, action = .emit settings ∧ a.emit settings = .ok (a.after action) := by
  cases h : action.run a with
  | error f => exact Or.inl (after_of_error h)
  | ok r =>
    rw [after_of_ok h]
    cases action with
    | layOut settings => exact Or.inr (Or.inl ⟨settings, rfl, run_layOut_eq_ok_iff.1 h⟩)
    | emit settings => exact Or.inr (Or.inr ⟨settings, rfl, h⟩)

theorem warnings_after (a : Assembly) (action : Action) :
    a.warnings <+: (a.after action).warnings := by
  rcases after_cases a action with h | ⟨settings, -, h⟩ | ⟨settings, -, h⟩
  · rewrite [h]
    exact List.prefix_rfl
  · rw [(layOut_eq_ok_iff.1 h).2]
    exact List.prefix_append _ _
  · rw [(emit_eq_ok_iff.1 h).2.2]
    exact List.prefix_append _ _

end Step

/-- What every pass over a program keeps: the statements stay, and a closed table is the one of the
program, with the addresses that belong to it. -/
structure Coherent (p : List SourceStatement) (a : Assembly) : Prop where
  statements : a.statements = p
  labels : a.labels.isClosed = true → a.labels = tableOf p
  layoutTrace : a.labels.isClosed = true → a.layoutTrace = Layout.addresses (throughEnd p)

namespace Coherent

variable {p : List SourceStatement} {a r : Assembly} {settings : Settings}

theorem ofStatements (p : List SourceStatement) : Coherent p (ofStatements p) :=
  ⟨rfl, nofun, nofun⟩

theorem layOut (h : Coherent p a) (hr : a.layOut settings = .ok r) : Coherent p r := by
  refine ⟨?_, fun _ => ?_, fun _ => ?_⟩
  · rw [statements_of_layOut hr, h.statements]
  · rw [labels_of_layOut hr, h.statements]
  · rw [layoutTrace_of_layOut hr, h.statements]

theorem emit (h : Coherent p a) (hr : a.emit settings = .ok r) : Coherent p r := by
  -- a second pass touches neither the labels nor the addresses of the first
  obtain ⟨-, -, rfl⟩ := emit_eq_ok_iff.1 hr
  exact ⟨h.statements, h.labels, h.layoutTrace⟩

theorem after (h : Coherent p a) (action : Action) : Coherent p (a.after action) := by
  rcases after_cases a action with hr | ⟨settings, -, hr⟩ | ⟨settings, -, hr⟩
  · rw [hr]
    exact h
  · exact h.layOut hr
  · exact h.emit hr

theorem reached (p : List SourceStatement) (history : List Action) :
    Coherent p (reached p history) := by
  induction history using List.reverseRecOn with
  | nil => exact Coherent.ofStatements p
  | append_singleton history action ih =>
    rw [Assembly.reached, List.foldl_append]
    exact ih.after action

/-- What a second pass over a coherent assembly stores. -/
theorem cells_of_emit (h : Coherent p a) (hr : a.emit settings = .ok r) :
    r.cells = cellsOf p ∧ r.emissionTrace = Layout.addresses (throughEnd p) := by
  have hclosed := (emit_eq_ok_iff.1 hr).1
  have hlabels : a.labels = tableOf a.statements := by
    rw [h.labels hclosed, h.statements]
  refine ⟨?_, ?_⟩
  · rw [Assembly.cells_of_emit hr hlabels, h.statements]
  · rw [emissionTrace_of_emit hr, h.statements]

/-- A second pass that succeeds on one assembly of a program succeeds on every other one that is
laid out. -/
theorem exists_emit {b : Assembly} (h : Coherent p a) (hr : a.emit settings = .ok r)
    (hb : Coherent p b) (hclosed : b.labels.isClosed = true) :
    ∃ r', b.emit settings = .ok r' := by
  obtain ⟨haclosed, hstop, -⟩ := emit_eq_ok_iff.1 hr
  refine ⟨_, emit_eq_ok_iff.2 ⟨hclosed, ?_, rfl⟩⟩
  rw [hb.labels hclosed, hb.statements]
  rw [h.labels haclosed, h.statements] at hstop
  exact hstop

end Coherent

section History

variable {p : List SourceStatement} {history : List Action} {i : Nat} {action : Action}
  {r : Assembly}

theorem reached_take_succ (h : history[i]? = some action) :
    reached p (history.take (i + 1)) = (reached p (history.take i)).after action := by
  unfold reached
  rw [List.take_add_one, h, List.foldl_append]
  rfl

theorem warnings_reached (p : List SourceStatement) (history : List Action) (i : Nat) :
    (reached p (history.take i)).warnings <+: (reached p (history.take (i + 1))).warnings := by
  cases h : history[i]? with
  | some action =>
    rw [reached_take_succ h]
    exact warnings_after _ action
  | none =>
    have hle := List.getElem?_eq_none_iff.1 h
    rewrite [List.take_of_length_le hle, List.take_of_length_le (by omega)]
    exact List.prefix_rfl

theorem succeeded_take_iff {k : Nat} :
    Succeeded p (history.take k) i action r ↔ i < k ∧ Succeeded p history i action r := by
  constructor
  · intro h
    have hik : i < k := by
      have hlt := (List.getElem?_eq_some_iff.1 h.chosen).1
      rw [List.length_take] at hlt
      omega
    refine ⟨hik, ?_, ?_⟩
    · rw [← List.getElem?_take_of_lt hik]
      exact h.chosen
    · have hresult := h.result
      rwa [List.take_take, Nat.min_eq_left (Nat.le_of_lt hik)] at hresult
  · rintro ⟨hik, h⟩
    refine ⟨?_, ?_⟩
    · rw [List.getElem?_take_of_lt hik]
      exact h.chosen
    · rw [List.take_take, Nat.min_eq_left (Nat.le_of_lt hik)]
      exact h.result

/-- What a successful pass brings about and every later one keeps holds in the end. -/
theorem Succeeded.kept {P : Assembly → Prop} (h : Succeeded p history i action r) (hr : P r)
    (hkeep : ∀ (a : Assembly) (next : Action), Coherent p a → P a → P (a.after next)) :
    P (reached p history) := by
  have hstart : reached p (history.take (i + 1)) = r := by
    rw [reached_take_succ h.chosen]
    exact after_of_ok h.result
  -- the rest of the history starts from the result
  have hrest : ∀ (rest : List Action) (a : Assembly), Coherent p a → P a → P (rest.foldl after a) := by
    intro rest
    induction rest with
    | nil =>
      intro a _ ha
      exact ha
    | cons next rest ih =>
      intro a hc ha
      exact ih (a.after next) (hc.after next) (hkeep a next hc ha)
  have hsplit : reached p history =
      (history.drop (i + 1)).foldl after (reached p (history.take (i + 1))) := by
    unfold reached
    rw [← List.foldl_append, List.take_append_drop]
  rw [hsplit]
  apply hrest
  · exact Coherent.reached p _
  · rw [hstart]
    exact hr

theorem Succeeded.isClosed {settings : Settings}
    (h : Succeeded p history i (.layOut settings) r) :
    (reached p history).labels.isClosed = true := by
  apply h.kept (P := fun a => a.labels.isClosed = true)
  · exact isClosed_of_layOut (run_layOut_eq_ok_iff.1 h.result)
  · intro a next _ ha
    rcases after_cases a next with hr | ⟨settings, -, hr⟩ | ⟨settings, -, hr⟩
    · rw [hr]
      exact ha
    · exact isClosed_of_layOut hr
    · rw [(emit_eq_ok_iff.1 hr).2.2]
      exact ha

/-- The table is closed once a first pass has succeeded, and by nothing else. -/
theorem isClosed_reached_iff :
    (reached p history).labels.isClosed = true ↔
      ∃ i settings r, Succeeded p history i (.layOut settings) r := by
  constructor
  · induction history using List.reverseRecOn with
    | nil =>
      intro h
      cases h
    | append_singleton history action ih =>
      intro h
      rw [reached, List.foldl_append] at h
      change ((reached p history).after action).labels.isClosed = true at h
      have hbefore : (history ++ [action]).take history.length = history := List.take_left
      -- unless it is this pass that closes the table, it was closed before
      have hearlier : (reached p history).labels.isClosed = true →
          ∃ i settings r, Succeeded p (history ++ [action]) i (.layOut settings) r := by
        intro hclosed
        obtain ⟨i, settings, r, hi⟩ := ih hclosed
        rw [← hbefore] at hi
        exact ⟨i, settings, r, (succeeded_take_iff.1 hi).2⟩
      rcases after_cases (reached p history) action with hr | ⟨settings, rfl, hr⟩ |
        ⟨settings, rfl, hr⟩
      · rw [hr] at h
        exact hearlier h
      · have hlast : Succeeded p (history ++ [.layOut settings]) history.length (.layOut settings)
            ((reached p history).after (.layOut settings)) := by
          refine ⟨List.getElem?_concat_length, ?_⟩
          rw [hbefore]
          exact run_layOut_eq_ok_iff.2 hr
        exact ⟨_, _, _, hlast⟩
      · rw [(emit_eq_ok_iff.1 hr).2.2] at h
        exact hearlier h
  · rintro ⟨i, settings, r, h⟩
    exact h.isClosed

theorem Succeeded.emit_before {settings : Settings} (h : Succeeded p history i (.emit settings) r) :
    ∃ j < i, ∃ settings' r', Succeeded p history j (.layOut settings') r' := by
  have hclosed := (emit_eq_ok_iff.1 h.result).1
  obtain ⟨j, settings', r', hj⟩ := isClosed_reached_iff.1 hclosed
  obtain ⟨hji, hj⟩ := succeeded_take_iff.1 hj
  exact ⟨j, hji, settings', r', hj⟩

/-- Once a second pass has succeeded, the assembly holds the words of the program, whatever
follows. -/
theorem Succeeded.cells {settings : Settings} (h : Succeeded p history i (.emit settings) r) :
    (reached p history).cells = cellsOf p ∧
      (reached p history).emissionTrace = Layout.addresses (throughEnd p) := by
  apply h.kept (P := fun a => a.cells = cellsOf p ∧
    a.emissionTrace = Layout.addresses (throughEnd p))
  · exact (Coherent.reached p _).cells_of_emit h.result
  · intro a next hc ha
    rcases after_cases a next with hr | ⟨settings, -, hr⟩ | ⟨settings, -, hr⟩
    · rw [hr]
      exact ha
    · -- a first pass leaves the words of the passes before it
      rw [(layOut_eq_ok_iff.1 hr).2]
      exact ha
    · exact hc.cells_of_emit hr

end History

/-- What holds after any history of passes over a program, each with settings of its own. The
statements stay. The table is closed exactly if a first pass has succeeded, and a second pass before
that fails. First passes that succeed leave the same labels and addresses, in this history or in
another, and second passes the same words and addresses, which are then those of the first. Warnings
are only added. Words that were stored once are those that a second pass with the labels of now
stores, also where a first pass came between. -/
theorem reached_invariant (p : List SourceStatement) (history : List Action) :
    (reached p history).statements = p ∧
    ((reached p history).labels.isClosed = true ↔
      ∃ i settings r, Succeeded p history i (.layOut settings) r) ∧
    (∀ i settings, history[i]? = some (.emit settings) →
      (∀ j < i, ∀ settings' r, ¬ Succeeded p history j (.layOut settings') r) →
      (Action.emit settings).run (reached p (history.take i)) =
        .error (.diagnostic { problem := .tableOpen })) ∧
    (∀ history' i j settings settings' r r', Succeeded p history i (.layOut settings) r →
      Succeeded p history' j (.layOut settings') r' →
      r.labels = r'.labels ∧ r.layoutTrace = r'.layoutTrace) ∧
    (∀ history' i j settings settings' r r', Succeeded p history i (.emit settings) r →
      Succeeded p history' j (.emit settings') r' →
      r.cells = r'.cells ∧ r.emissionTrace = r'.emissionTrace) ∧
    ((∃ i settings r, Succeeded p history i (.layOut settings) r) →
      (∃ i settings r, Succeeded p history i (.emit settings) r) →
      (reached p history).emissionTrace = (reached p history).layoutTrace) ∧
    (∀ i, (reached p (history.take i)).warnings <+: (reached p (history.take (i + 1))).warnings) ∧
    ∀ i settings r, Succeeded p history i (.emit settings) r →
      ∃ r', (reached p history).emit settings = .ok r' ∧ r'.cells = (reached p history).cells ∧
        r'.emissionTrace = (reached p history).emissionTrace := by
  have hcoherent := Coherent.reached p history
  refine ⟨hcoherent.statements, isClosed_reached_iff, ?_, ?_, ?_, ?_, warnings_reached p history, ?_⟩
  · intro i settings _ hnone
    -- no first pass has closed the table by then
    apply emit_of_open
    rw [← Bool.not_eq_true, isClosed_reached_iff]
    rintro ⟨j, settings', r, hj⟩
    obtain ⟨hji, hj⟩ := succeeded_take_iff.1 hj
    exact hnone j hji settings' r hj
  · intro history' i j settings settings' r r' hr hr'
    have hlaid := run_layOut_eq_ok_iff.1 hr.result
    have hlaid' := run_layOut_eq_ok_iff.1 hr'.result
    have hstatements := (Coherent.reached p (history.take i)).statements
    have hstatements' := (Coherent.reached p (history'.take j)).statements
    refine ⟨?_, ?_⟩
    · rw [labels_of_layOut hlaid, labels_of_layOut hlaid', hstatements, hstatements']
    · rw [layoutTrace_of_layOut hlaid, layoutTrace_of_layOut hlaid', hstatements, hstatements']
  · intro history' i j settings settings' r r' hr hr'
    obtain ⟨hcells, htrace⟩ := (Coherent.reached p (history.take i)).cells_of_emit hr.result
    obtain ⟨hcells', htrace'⟩ := (Coherent.reached p (history'.take j)).cells_of_emit hr'.result
    exact ⟨hcells.trans hcells'.symm, htrace.trans htrace'.symm⟩
  · rintro ⟨i, settings, r, hlaid⟩ ⟨j, settings', r', hstored⟩
    rw [hstored.cells.2, hcoherent.layoutTrace hlaid.isClosed]
  · intro i settings r hr
    obtain ⟨j, -, settings', r', hlaid⟩ := hr.emit_before
    obtain ⟨next, hnext⟩ := (Coherent.reached p (history.take i)).exists_emit hr.result hcoherent
      hlaid.isClosed
    obtain ⟨hcells, htrace⟩ := hcoherent.cells_of_emit hnext
    exact ⟨next, hnext, hcells.trans hr.cells.1.symm, htrace.trans hr.cells.2.symm⟩

/-- A program whose label moves, which only some settings allow, and with a word that only some
settings encode. -/
def movedLabelProgram : List SourceStatement :=
  [⟨⟨some "A", .memory .lda, some "B", false⟩, {}⟩,
   ⟨⟨some "A", .memory .bun, some "A", false⟩, {}⟩]

/-- A second pass too early, both passes, each of them once more with settings that refuse the
program, and the first once more. -/
def mixedHistory : List Action :=
  [.emit {}, .layOut .lenient, .emit {}, .layOut {}, .emit { strictLabels := true },
   .layOut { allowRebinding := true, strictLabels := true }]

theorem reached_invariant_of_mixedHistory :
    (∃ r, Succeeded movedLabelProgram mixedHistory 2 (.emit {}) r) ∧
    (∃ r, Succeeded movedLabelProgram mixedHistory 5
      (.layOut { allowRebinding := true, strictLabels := true }) r) ∧
    (Action.emit {}).run (reached movedLabelProgram []) =
      .error (.diagnostic { problem := .tableOpen }) ∧
    (reached movedLabelProgram mixedHistory).labels.toList = [("A", 1)] ∧
    (reached movedLabelProgram mixedHistory).emissionTrace =
      (reached movedLabelProgram mixedHistory).layoutTrace ∧
    (reached movedLabelProgram mixedHistory).warnings.length = 3 ∧
    ∃ r', (reached movedLabelProgram mixedHistory).emit {} = .ok r' ∧
      r'.cells = (reached movedLabelProgram mixedHistory).cells := by
  obtain ⟨-, -, hearly, -, -, htraces, -, hstored⟩ :=
    reached_invariant movedLabelProgram mixedHistory
  have hemit : ∃ r, Succeeded movedLabelProgram mixedHistory 2 (.emit {}) r := ⟨_, rfl, rfl⟩
  have hlaid : ∃ r, Succeeded movedLabelProgram mixedHistory 5
      (.layOut { allowRebinding := true, strictLabels := true }) r := ⟨_, rfl, rfl⟩
  obtain ⟨r, hr⟩ := hemit
  obtain ⟨r', hr', hcells, -⟩ := hstored 2 {} r hr
  refine ⟨⟨r, hr⟩, hlaid, ?_, rfl, ?_, rfl, r', hr', hcells⟩
  · exact hearly 0 {} rfl (fun j hj => absurd hj (Nat.not_lt_zero j))
  · exact htraces ⟨5, _, hlaid⟩ ⟨2, _, r, hr⟩

end Assembly

end TwoPass
