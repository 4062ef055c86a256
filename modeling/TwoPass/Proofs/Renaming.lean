import TwoPass.Proofs.CorrespondingWords

/-!
# Renaming labels

What a label is called matters only for which labels are the same. Renaming the labels of a program,
and the operands that refer to labels, by a function that keeps different labels apart leaves all
that is assembled as it was, under the new names.
-/

namespace TwoPass

/-- The statement with its label renamed, and its operand too if that is a label. -/
def SourceStatement.rename (f : String → String) (s : SourceStatement) : SourceStatement :=
  { s with
    label := s.label.map f
    operand :=
      match s.op with
      | .memory _ => s.operand.map f
      | _ => s.operand }

namespace SourceStatement

variable {f : String → String} {s : SourceStatement}

theorem operand_rename_of_memory {op : MemoryOp} (h : s.op = .memory op) :
    (s.rename f).operand = s.operand.map f := by
  unfold rename
  rw [h]

theorem operand_rename (h : ∀ op, s.op ≠ .memory op) : (s.rename f).operand = s.operand := by
  unfold rename
  cases hop : s.op with
  | memory op => exact absurd hop (h op)
  | register op => rfl
  | device op => rfl
  | directive d => rfl

/-- The operand of an origin is a literal. -/
theorem operand_rename_of_org (h : s.op = .org) : (s.rename f).operand = s.operand := by
  apply operand_rename
  intro op hop
  rw [h] at hop
  cases hop

end SourceStatement

namespace Correspondence

variable {f : String → String}

/-- Labels stand for those that they are renamed to. -/
def renamedBy (f : String → String) (hf : Function.Injective f) : Correspondence where
  StandsFor l l' := l' = f l
  one_to_one := by
    intro l m l' m' hl hm
    rw [hl, hm]
    exact hf.eq_iff
  distance := 0

theorem rel_map_self (x : Option String) : Option.Rel (fun l l' => l' = f l) x (x.map f) := by
  cases x with
  | none => exact .none
  | some l => exact .some rfl

theorem encoded_rename (hf : Function.Injective f) (s : SourceStatement) :
    (renamedBy f hf).Encoded s (s.rename f) where
  op := rfl
  label := rel_map_self s.label
  readable := by
    intro horg
    rw [SourceStatement.operand_rename_of_org horg]
  origin := by
    intro horg
    show ((s.rename f).originValue : Int) = s.originValue + 0
    unfold SourceStatement.originValue
    rw [SourceStatement.operand_rename_of_org horg, Int.add_zero]
  indirect := fun _ _ => rfl
  reference := by
    intro op hop
    rw [SourceStatement.operand_rename_of_memory hop]
    exact rel_map_self s.operand
  literal := fun _ hop => SourceStatement.operand_rename hop

theorem encoded_renamed_program (hf : Function.Injective f) (p : List SourceStatement) :
    List.Forall₂ (renamedBy f hf).Encoded p (p.map (·.rename f)) := by
  rw [List.forall₂_map_right_iff, List.forall₂_same]
  intro s _
  exact encoded_rename hf s

end Correspondence

namespace Assembly

variable {f : String → String}

/-- A program with its labels renamed one for one can be assembled if and only if the program can,
to the same words, the same traces and as many warnings, and with the table renamed. -/
theorem assemble_renamed (hf : Function.Injective f) (settings : Settings)
    (p : List SourceStatement) :
    ((∃ b, assemble settings (p.map (·.rename f)) = .ok b) ↔
      ∃ a, assemble settings p = .ok a) ∧
    ∀ a b, assemble settings p = .ok a → assemble settings (p.map (·.rename f)) = .ok b →
      b.layoutTrace = a.layoutTrace ∧ b.emissionTrace = a.emissionTrace ∧
      b.cells.map (fun c => (c.address, c.word)) = a.cells.map (fun c => (c.address, c.word)) ∧
      b.labels.toList = a.labels.toList.map (fun x => (f x.1, x.2)) ∧
      b.warnings.length = a.warnings.length := by
  have hencoded := Correspondence.encoded_renamed_program hf p
  refine ⟨Correspondence.exists_assemble_iff rfl hencoded, ?_⟩
  intro a b ha hb
  obtain ⟨b', hb', hcorresponds⟩ :=
    Correspondence.assemble_corresponds (Int.le_refl 0) (Or.inl rfl) hencoded ha
  rw [hb] at hb'
  cases hb'
  refine ⟨Correspondence.eq_of_addresses rfl hcorresponds.layoutTrace,
    Correspondence.eq_of_addresses rfl hcorresponds.emissionTrace, hcorresponds.cells_eq rfl, ?_,
    hcorresponds.warnings rfl⟩
  rw [hcorresponds.labels.toList_eq (fun l l' hl => hl)]
  exact List.map_congr_left fun x _ => congrArg (Prod.mk (f x.1)) (Int.add_zero x.2)

/-- A label that moves and is referred to, an operand that nothing carries as a label, and a literal
that looks like one. -/
def namesProgram : List SourceStatement :=
  [⟨⟨some "A", .memory .lda, some "B", true⟩, {}⟩,
   ⟨⟨some "A", .memory .bun, some "A", false⟩, {}⟩,
   ⟨⟨some "C", .directive .hexadecimal, some "A", false⟩, {}⟩]

theorem assemble_renamed_of_namesProgram :
    Function.Injective (fun l : String => l.push 'B') ∧
    ∃ b, assemble { allowRebinding := true } (namesProgram.map (·.rename (·.push 'B'))) = .ok b ∧
      b.layoutTrace = [0, 1, 2] ∧
      b.cells.map (fun c => (c.address, c.word)) =
        [(0, 0xA000#16), (1, 0x4001#16), (2, 0x000A#16)] ∧
      b.labels.toList = [("AB", 1), ("CB", 2)] ∧ b.warnings.length = 2 := by
  have hf : Function.Injective (fun l : String => l.push 'B') := by
    intro l m hlm
    have hchars := congrArg String.toList hlm
    simp only [String.toList_push] at hchars
    exact String.toList_inj.1 (List.append_cancel_right hchars)
  obtain ⟨hiff, hsame⟩ := assemble_renamed hf { allowRebinding := true } namesProgram
  obtain ⟨a, ha⟩ : ∃ a, assemble { allowRebinding := true } namesProgram = .ok a := ⟨_, rfl⟩
  obtain ⟨b, hb⟩ := hiff.2 ⟨a, ha⟩
  obtain ⟨htrace, -, hcells, hlabels, hwarnings⟩ := hsame a b ha hb
  refine ⟨hf, b, hb, ?_, ?_, ?_, ?_⟩
  · rw [htrace]
    cases ha
    rfl
  · rw [hcells]
    cases ha
    rfl
  · rw [hlabels]
    cases ha
    rfl
  · rw [hwarnings]
    cases ha
    rfl

end Assembly

end TwoPass
