import TwoPass.Proofs.Encodings

/-!
# The passes in lockstep

The passes count addresses separately. After a first pass that succeeded, the second gives every
statement the same address again, and what stops it can only be the encoding of a statement: not a
counter out of range, not an origin, and not a table that is still open.
-/

namespace TwoPass

namespace Emission

variable {settings : Settings} {labels : LabelTable} {p : List SourceStatement} {es : List Event}
  {counter : Nat}

theorem run_encode (h : Pass.Run (step settings labels) 0 p es counter) {k : Nat}
    {s : SourceStatement} (hk : p[k]? = some s) (hs : s.Stores) :
    ∃ r, s.encode settings labels = .ok r := by
  obtain ⟨e, mid, next, -, -, hstep⟩ := h.at hk
  obtain ⟨word, hword, -⟩ := (step_eq_ok hstep).2.2.1 hs
  exact ⟨_, hword⟩

end Emission

namespace Assembly

variable {c₁ c₂ : Settings} {a b : Assembly}

theorem layoutTrace_of_layOut (h : a.layOut c₁ = .ok b) :
    b.layoutTrace = Layout.addresses (throughEnd a.statements) := by
  obtain ⟨es, state, hrun, rfl⟩ := layOut_eq_ok h
  exact Layout.run_addresses hrun

theorem emissionTrace_of_emit (h : a.emit c₂ = .ok b) :
    b.emissionTrace = Layout.addresses (throughEnd a.statements) := by
  obtain ⟨es, counter, hrun, rfl⟩ := emit_eq_ok h
  exact Emission.run_addresses hrun

theorem statements_of_layOut (h : a.layOut c₁ = .ok b) : b.statements = a.statements := by
  obtain ⟨es, state, -, rfl⟩ := layOut_eq_ok h
  rfl

theorem isClosed_of_layOut (h : a.layOut c₁ = .ok b) : b.labels.isClosed = true := by
  obtain ⟨es, state, -, rfl⟩ := layOut_eq_ok h
  rfl

/-- Where a second pass fails after a first that succeeded: at the first statement that stores a
word and has no encoding. -/
theorem emit_eq_error_after_layOut {f : Fault} (h : a.layOut c₁ = .ok b)
    (he : b.emit c₂ = .error f) :
    ∃ (k : Nat) (s : SourceStatement), (throughEnd a.statements)[k]? = some s ∧ s.Stores ∧
      s.encode c₂ b.labels = .error f ∧
      ∀ j < k, ∀ t : SourceStatement, (throughEnd a.statements)[j]? = some t → t.Stores →
        ∃ r, t.encode c₂ b.labels = .ok r := by
  obtain ⟨k, s, es, counter, hk, hrun, hstep⟩ := emit_eq_error (isClosed_of_layOut h) he
  rw [statements_of_layOut h] at hk hrun
  obtain ⟨es₁, state, hlay, hb⟩ := layOut_eq_ok h
  -- both counters before the failing statement are those of the statements before it
  obtain ⟨e, mid, next, -, hmid, hplaced⟩ := hlay.at hk
  have hcounter : mid.counter = counter := by
    rw [Layout.run_counter hmid, Emission.run_counter hrun]
  have hplace := (Layout.step_eq_ok hplaced).1
  rw [hcounter] at hplace
  obtain ⟨hs, hencode⟩ := Emission.step_eq_error_of_place hplace hstep
  refine ⟨k, s, hk, hs, hencode, ?_⟩
  intro j hj t ht hts
  exact Emission.run_encode hrun (by rw [List.getElem?_take_of_lt hj]; exact ht) hts

/-- After a first pass that succeeded, the second either repeats its addresses, one for each
statement through the end, or fails as the encoding of a statement does; it reports neither an
overflow, nor an open table, nor an origin. -/
theorem emit_in_lockstep (c₁ c₂ : Settings) (h : a.layOut c₁ = .ok b) :
    ((∃ r, b.emit c₂ = .ok r ∧ r.emissionTrace = r.layoutTrace ∧ r.layoutTrace = b.layoutTrace ∧
        r.emissionTrace.length = (throughEnd a.statements).length) ∨
      ∃ s ∈ throughEnd a.statements, s.op ≠ .org ∧ s.op ≠ .fin ∧
        ∃ f, s.encode c₂ b.labels = .error f ∧ b.emit c₂ = .error f) ∧
    ∀ d, b.emit c₂ = .error (.diagnostic d) →
      (∀ address, d.problem ≠ .counterOverflow address) ∧ d.problem ≠ .tableOpen ∧
      d.problem ≠ .operandMissing .org ∧
      ∀ literal flaw, d.problem ≠ .badLiteral Operation.org.mnemonic literal flaw := by
  refine ⟨?_, ?_⟩
  · cases he : b.emit c₂ with
    | ok r =>
      have htrace : r.emissionTrace = b.layoutTrace := by
        rw [emissionTrace_of_emit he, statements_of_layOut h, layoutTrace_of_layOut h]
      have hkept : r.layoutTrace = b.layoutTrace := by
        obtain ⟨es, counter, -, rfl⟩ := emit_eq_ok he
        rfl
      refine Or.inl ⟨r, rfl, htrace.trans hkept.symm, hkept, ?_⟩
      rw [htrace, layoutTrace_of_layOut h, Layout.length_addresses]
    | error f =>
      obtain ⟨k, s, hk, hs, hencode, -⟩ := emit_eq_error_after_layOut h he
      exact Or.inr ⟨s, List.mem_of_getElem? hk, hs.1, hs.2, f, hencode, rfl⟩
  · intro d hd
    obtain ⟨k, s, -, hs, hencode, -⟩ := emit_eq_error_after_layOut h hd
    have hop : s.op.mnemonic ≠ Operation.org.mnemonic :=
      fun he => hs.1 (Operation.mnemonic_injective he)
    rcases SourceStatement.encode_problem hs hencode with
      (hp | ⟨literal, flaw, hp⟩) | (hp | ⟨label, similar, hp⟩)
    · rw [hp]
      exact ⟨nofun, nofun, fun he => hs.1 (Problem.operandMissing.inj he), nofun⟩
    · rw [hp]
      exact ⟨nofun, nofun, nofun, fun _ _ he => hop (Problem.badLiteral.inj he).1⟩
    · rw [hp]
      exact ⟨nofun, nofun, nofun, nofun⟩
    · rw [hp]
      exact ⟨nofun, nofun, nofun, nofun⟩

/-- A program whose only word is at the last address, and whose end is just beyond it. -/
def lastAddressProgram : List SourceStatement :=
  [⟨⟨none, .org, some "FFFF", false⟩, {}⟩,
   ⟨⟨some "LAST", .memory .bun, some "LAST", false⟩, {}⟩,
   ⟨⟨none, .fin, none, false⟩, {}⟩]

theorem emit_in_lockstep_at_last_address :
    ∃ b r, (ofStatements lastAddressProgram).layOut {} = .ok b ∧
      b.layoutTrace = [0xFFFF, 0xFFFF, 0x10000] ∧
      b.emit { strictLabels := true } = .ok r ∧ r.emissionTrace = b.layoutTrace := by
  obtain ⟨b, hb⟩ : ∃ b, (ofStatements lastAddressProgram).layOut {} = .ok b := ⟨_, rfl⟩
  have htrace : b.layoutTrace = [0xFFFF, 0xFFFF, 0x10000] := by cases hb; rfl
  rcases (emit_in_lockstep {} { strictLabels := true } hb).1 with
    ⟨r, hr, heq, hkept, -⟩ | ⟨s, -, -, -, f, -, hf⟩
  · exact ⟨b, r, hb, htrace, hr, heq.trans hkept⟩
  · cases hb; cases hf

end Assembly

end TwoPass
