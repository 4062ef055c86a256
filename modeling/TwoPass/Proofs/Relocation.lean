import TwoPass.Proofs.CorrespondingWords

/-!
# Moving a program

A program that starts with its only origin is moved by changing that origin. It can be moved down
wherever it can stand, and it can be moved up as far as the last address allows. What moves with it
is the value of every label, the address of every word, and the address field of every reference to
a label; nothing else does.
-/

namespace TwoPass

namespace Correspondence

variable {d : Int} {s : SourceStatement}

theorem inverse_relocation (d : Int) : (relocation d).inverse = relocation (-d) := by
  unfold inverse relocation
  congr 1
  funext l l'
  exact propext eq_comm

theorem encoded_relocation (hop : s.op ≠ .org) : (relocation d).Encoded s s where
  op := rfl
  label := rel_eq_refl s.label
  readable := fun horg => absurd horg hop
  origin := fun horg => absurd horg hop
  indirect := fun _ _ => rfl
  reference := fun _ _ => rel_eq_refl s.operand
  literal := fun _ _ => rfl

end Correspondence

/-- The same program, from two origins. -/
structure Relocated (base base' : Nat) (origin origin' : SourceStatement)
    (body : List SourceStatement) : Prop where
  op : origin.op = .org
  op' : origin'.op = .org
  label : origin'.label = origin.label
  base : origin.hexOperand = .ok base
  base' : origin'.hexOperand = .ok base'
  body : ∀ s ∈ body, s.op ≠ .org

namespace Relocated

variable {settings : Settings} {base base' : Nat} {origin origin' : SourceStatement}
  {body : List SourceStatement} {a a' : Assembly}

theorem symm (h : Relocated base base' origin origin' body) :
    Relocated base' base origin' origin body :=
  ⟨h.op', h.op, h.label.symm, h.base', h.base, h.body⟩

theorem encoded_origin (h : Relocated base base' origin origin' body) :
    (Correspondence.relocation ((base' : Int) - base)).Encoded origin origin' := by
  obtain ⟨hlit, hvalue⟩ := SourceStatement.hexOperand_eq_ok_iff.1 h.base
  obtain ⟨hlit', hvalue'⟩ := SourceStatement.hexOperand_eq_ok_iff.1 h.base'
  have hstores : ¬ origin.Stores := fun hs => hs.1 h.op
  refine ⟨⟨h.op'.trans h.op.symm, ?_, fun _ => iff_of_true hlit' hlit, fun _ => ?_⟩, ?_, ?_, ?_⟩
  · rw [h.label]
    exact rel_eq_refl origin.label
  · show (origin'.originValue : Int) = origin.originValue + ((base' : Int) - base)
    rw [← hvalue, ← hvalue']
    omega
  · intro op hop
    rw [h.op] at hop
    cases hop
  · intro op hop
    rw [h.op] at hop
    cases hop
  · exact fun hs => absurd hs hstores

theorem encoded (h : Relocated base base' origin origin' body) :
    List.Forall₂ (Correspondence.relocation ((base' : Int) - base)).Encoded (origin :: body)
      (origin' :: body) := by
  refine .cons h.encoded_origin (List.forall₂_same.2 ?_)
  intro s hs
  exact Correspondence.encoded_relocation (h.body s hs)

/-- A program can be moved down. -/
theorem assemble_of_le (h : Relocated base base' origin origin' body) (hle : base' ≤ base)
    (ha : Assembly.assemble settings (origin :: body) = .ok a) :
    ∃ a', Assembly.assemble settings (origin' :: body) = .ok a' ∧
      (Correspondence.relocation ((base' : Int) - base)).Assemblies a a' := by
  refine Correspondence.assemble_corresponds ?_ (Or.inr ⟨origin, rfl, h.op⟩) h.encoded ha
  show (base' : Int) - base ≤ 0
  omega

/-- Wherever the program can stand, it is the same but for its place. -/
theorem assemblies (h : Relocated base base' origin origin' body)
    (ha : Assembly.assemble settings (origin :: body) = .ok a)
    (ha' : Assembly.assemble settings (origin' :: body) = .ok a') :
    (Correspondence.relocation ((base' : Int) - base)).Assemblies a a' := by
  rcases Nat.le_total base' base with hle | hle
  · obtain ⟨b, hb, hcorresponds⟩ := h.assemble_of_le hle ha
    rw [ha'] at hb
    cases hb
    exact hcorresponds
  · -- moved up: the lower program is the one that the other goes the way of
    obtain ⟨b, hb, hcorresponds⟩ := h.symm.assemble_of_le hle ha'
    rw [ha] at hb
    cases hb
    have hinverse := hcorresponds.inverse
    rw [Correspondence.inverse_relocation, Int.neg_sub] at hinverse
    exact hinverse

theorem statements_of_cells (ha : Assembly.assemble settings (origin :: body) = .ok a)
    (hop : origin.op = .org) :
    a.cells.map (·.statement) = (throughEnd body).filter (·.Stores) := by
  -- the origin itself stores nothing, so where it points does not show in the statements
  have hthrough : throughEnd (origin :: body) = origin :: throughEnd body := by
    rw [throughEnd, if_neg (by rw [hop]; decide)]
  rw [Assembly.cells_of_assemble ha, Emission.statements_of_cells, hthrough,
    List.filter_cons_of_neg]
  · exact fun hs => (of_decide_eq_true hs).1 hop
  · intro s hs hstores
    exact Assembly.encode_of_assemble ha hs hstores

end Relocated

namespace Assembly

variable {settings : Settings} {base base' : Nat} {origin origin' : SourceStatement}
  {body : List SourceStatement}

/-- A program whose only origin comes first can be moved down. Between any two places where it can
stand, the values of the labels are the distance apart, and so are the addresses of the words, which
come from the same statements. A word is the same at both places unless it refers to a label of the
table; then its address field moves with the program, modulo 4096, and its other bits stay. -/
theorem origin_moves_program (h : Relocated base base' origin origin' body) :
    (base' ≤ base → (∃ a, assemble settings (origin :: body) = .ok a) →
      ∃ a', assemble settings (origin' :: body) = .ok a') ∧
    ∀ a a', assemble settings (origin :: body) = .ok a →
      assemble settings (origin' :: body) = .ok a' →
      a'.labels.toList = a.labels.toList.map (fun x => (x.1, x.2 + ((base' : Int) - base))) ∧
      a'.cells.map (·.statement) = a.cells.map (·.statement) ∧
      List.Forall₂ (fun c c' => (c'.address : Int) = c.address + ((base' : Int) - base) ∧
        (¬ c.statement.RefersInto a.labels → c'.word = c.word) ∧
        (c.statement.RefersInto a.labels → Word.Displaced ((base' : Int) - base) c.word c'.word))
        a.cells a'.cells := by
  refine ⟨?_, ?_⟩
  · rintro hle ⟨a, ha⟩
    obtain ⟨a', ha', -⟩ := h.assemble_of_le hle ha
    exact ⟨a', ha'⟩
  · intro a a' ha ha'
    have hcorresponds := h.assemblies ha ha'
    refine ⟨?_, ?_, ?_⟩
    · exact hcorresponds.labels.toList_eq fun l l' hl => hl.symm
    · rw [Relocated.statements_of_cells ha h.op, Relocated.statements_of_cells ha' h.op']
    · exact hcorresponds.cells.imp fun c c' hc => ⟨hc.address, hc.same, hc.displaced⟩

/-- An origin with a label. -/
def labelledOrigin (operand : String) : SourceStatement :=
  ⟨⟨some "TOP", .org, some operand, false⟩, {}⟩

/-- References to a label that follows, to a label that nothing carries, and to the label of the
origin, and statements beyond the end. -/
def movableBody : List SourceStatement :=
  [⟨⟨none, .memory .lda, some "WORD", true⟩, {}⟩,
   ⟨⟨none, .memory .bun, some "LOST", false⟩, {}⟩,
   ⟨⟨none, .register .cla, none, false⟩, {}⟩,
   ⟨⟨some "WORD", .directive .decimal, some "-5", false⟩, {}⟩,
   ⟨⟨none, .memory .bun, some "TOP", false⟩, {}⟩,
   ⟨⟨none, .fin, none, false⟩, {}⟩,
   ⟨⟨some "LOST", .directive .decimal, some "1", false⟩, {}⟩]

theorem origin_moves_program_across_page :
    Relocated 0x1000 0xFFA (labelledOrigin "1000") (labelledOrigin "FFA") movableBody ∧
    ∃ a a', assemble {} (labelledOrigin "1000" :: movableBody) = .ok a ∧
      assemble {} (labelledOrigin "FFA" :: movableBody) = .ok a' ∧
      a'.labels.toList = [("TOP", 0xFFA), ("WORD", 0xFFD)] ∧
      a.cells.map (fun c => (c.address, c.word)) =
        [(0x1000, 0xA003#16), (0x1001, 0x4000#16), (0x1002, 0x7800#16), (0x1003, 0xFFFB#16),
         (0x1004, 0x4000#16)] ∧
      a'.cells.map (fun c => (c.address, c.word)) =
        [(0xFFA, 0xAFFD#16), (0xFFB, 0x4000#16), (0xFFC, 0x7800#16), (0xFFD, 0xFFFB#16),
         (0xFFE, 0x4FFA#16)] := by
  have h : Relocated 0x1000 0xFFA (labelledOrigin "1000") (labelledOrigin "FFA") movableBody := by
    refine ⟨rfl, rfl, rfl, rfl, rfl, ?_⟩
    decide
  obtain ⟨a, ha⟩ : ∃ a, assemble {} (labelledOrigin "1000" :: movableBody) = .ok a := ⟨_, rfl⟩
  obtain ⟨hdown, hboth⟩ := origin_moves_program h
  obtain ⟨a', ha'⟩ := hdown (by decide) ⟨a, ha⟩
  obtain ⟨hlabels, -, -⟩ := hboth a a' ha ha'
  refine ⟨h, a, a', ha, ha', ?_, ?_, ?_⟩
  · rw [hlabels]
    cases ha
    rfl
  · cases ha
    rfl
  · cases ha'
    rfl

end Assembly

end TwoPass
