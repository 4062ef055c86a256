import TwoPass.Proofs.Blocks
import TwoPass.Proofs.Numerals
import TwoPass.Proofs.Reading
import TwoPass.Proofs.Sections
import TwoPass.Proofs.Warnings
import TwoPass.Session

/-!
# Reassembly

The words of an assembly, written one by one as an origin and a hexadecimal word, are a program that
stores the same words at the same addresses. It needs no settings, binds no labels and is free of
warnings: each origin and its word are a block, so that no word depends on another.
-/

namespace TwoPass

namespace SourceStatement

theorem encode_hexadecimal {settings : Settings} {labels : LabelTable} {s : SourceStatement}
    {value : Nat} (hop : s.op = .directive .hexadecimal) (h : s.hexOperand = .ok value) :
    s.encode settings labels = .ok (Word.ofInt value, []) := by
  unfold encode
  rw [hop]
  simp only [h]

end SourceStatement

/-- The lines that store words again: for each, an origin at its address, then the word. -/
def reloadLines (cells : List Cell) : List RawLine :=
  cells.flatMap fun c =>
    [.text ("ORG" ++ " " ++ Numeral.hex 4 c.address), .text ("HEX" ++ " " ++ c.word.hex)]

/-- The statements of the two lines of a word, the first of which has the given number. -/
def reloadBlock (file : Option String) (number : Nat) (c : Cell) : Block where
  statements :=
    [.ofOperand .org (Numeral.hex 4 c.address) number file,
     .ofOperand (.directive .hexadecimal) c.word.hex (number + 1) file]
  headed := rfl
  endless := by
    intro s hs
    simp only [List.mem_cons, List.not_mem_nil, or_false] at hs
    rcases hs with rfl | rfl <;> nofun

def reloadBlocks (file : Option String) (number : Nat) : List Cell → List Block
  | [] => []
  | c :: cells => reloadBlock file number c :: reloadBlocks file (number + 2) cells

theorem Numeral.not_blank_of_mem_hex {n width : Nat} {c : Char} (hc : c ∈ (hex width n).toList) :
    Text.isBlank c = false := by
  obtain ⟨d, hd, rfl⟩ := exists_digit_of_mem_padded (by decide : 1 < 16) hc
  interval_cases d <;> decide

theorem Numeral.hex_ne_nil {n : Nat} (hn : n ≤ wordMax) : (hex 4 n).toList ≠ [] := by
  intro hnil
  have hread := isHexNumeral_hex hn
  rw [hnil] at hread
  cases hread

theorem Word.toNat_le_wordMax (w : Word) : w.toNat ≤ wordMax := by
  have hlt := w.isLt
  have hmax : wordMax = 65535 := rfl
  omega

theorem mapM_reloadLines (file : Option String) {cells : List Cell}
    (h : ∀ c ∈ cells, c.address ≤ wordMax) (number : Nat) :
    ((reloadLines cells).zipIdx number).mapM
        (fun x => SourceStatement.ofLine x.1 (some x.2) file none) =
      .ok (Block.program (reloadBlocks file number cells)) := by
  induction cells generalizing number with
  | nil => rfl
  | cons c cells ih =>
    have horg := SourceStatement.ofLine_operand .org
      (Numeral.hex_ne_nil (h c List.mem_cons_self)) (fun _ => Numeral.not_blank_of_mem_hex)
      number file
    have hword := @SourceStatement.ofLine_operand (.directive .hexadecimal) c.word.hex
      (Numeral.hex_ne_nil c.word.toNat_le_wordMax) (fun _ => Numeral.not_blank_of_mem_hex)
      (number + 1) file
    have hrest := ih (fun d hd => h d (List.mem_cons_of_mem c hd)) (number + 2)
    show List.mapM _ ((RawLine.text (Operation.org.mnemonic ++ " " ++ Numeral.hex 4 c.address) ::
      .text ((Operation.directive .hexadecimal).mnemonic ++ " " ++ c.word.hex) ::
        reloadLines cells).zipIdx number) = _
    rw [List.zipIdx_cons, List.zipIdx_cons, List.mapM_cons, horg, List.mapM_cons, hword, hrest]
    rfl

section Reload

variable {file : Option String} {number : Nat} {cells : List Cell}

theorem mem_reloadBlocks {block : Block} (hb : block ∈ reloadBlocks file number cells) :
    ∃ c ∈ cells, ∃ n, block = reloadBlock file n c := by
  induction cells generalizing number with
  | nil => cases hb
  | cons c cells ih =>
    rcases List.mem_cons.1 hb with rfl | hb
    · exact ⟨c, List.mem_cons_self, number, rfl⟩
    · obtain ⟨d, hd, hblock⟩ := ih hb
      exact ⟨d, List.mem_cons_of_mem c hd, hblock⟩

theorem isHexLiteral_hex {n : Nat} (hn : n ≤ wordMax) :
    IsHexLiteral (some (Numeral.hex 4 n)) := by
  refine ⟨_, rfl, Numeral.isHexNumeral_hex hn, ?_⟩
  have hvalue : Numeral.value 16 (Numeral.hex 4 n).toList = n :=
    Numeral.value_padded (by decide) (by decide)
  rwa [hvalue]

theorem originValue_hex {n : Nat} {s : SourceStatement}
    (hs : s.operand = some (Numeral.hex 4 n)) : s.originValue = n := by
  rw [SourceStatement.originValue, hs]
  exact Numeral.value_padded (by decide) (by decide)

theorem placed_reloadBlock (file : Option String) (number : Nat) (c : Cell) :
    Layout.placed (reloadBlock file number c).statements =
      [(.ofOperand .org (Numeral.hex 4 c.address) number file, c.address),
       (.ofOperand (.directive .hexadecimal) c.word.hex (number + 1) file, c.address)] := by
  have horigin : Layout.addressOf 0 (.ofOperand .org (Numeral.hex 4 c.address) number file) =
      c.address := (if_pos rfl).trans (originValue_hex rfl)
  show Layout.placed ([] ++ [_] ++ [_]) = _
  rw [Layout.placed_concat, Layout.placed_concat, Layout.counterAfter_concat]
  show [(_, Layout.addressOf 0 _)] ++
    [(_, Layout.addressOf (Layout.advance (Layout.addressOf 0 _) _) _)] = _
  rw [horigin]
  rfl

theorem mem_placed_reload {x : SourceStatement × Nat}
    (hx : x ∈ Layout.placed (Block.program (reloadBlocks file number cells))) :
    ∃ c ∈ cells, x.2 = c.address ∧ x.1.label = none ∧
      (x.1.op = .org ∧ x.1.operand = some (Numeral.hex 4 c.address) ∨
        x.1.op = .directive .hexadecimal ∧ x.1.operand = some c.word.hex) := by
  rw [Layout.placed_program, List.mem_flatMap] at hx
  obtain ⟨block, hblock, hx⟩ := hx
  obtain ⟨c, hc, n, rfl⟩ := mem_reloadBlocks hblock
  rw [placed_reloadBlock] at hx
  simp only [List.mem_cons, List.not_mem_nil, or_false] at hx
  rcases hx with rfl | rfl
  · exact ⟨c, hc, rfl, rfl, Or.inl ⟨rfl, rfl⟩⟩
  · exact ⟨c, hc, rfl, rfl, Or.inr ⟨rfl, rfl⟩⟩

theorem directive_of_mem_reload {s : SourceStatement}
    (hs : s ∈ Block.program (reloadBlocks file number cells)) :
    s.label = none ∧ ∃ d, s.op = .directive d := by
  rw [← Layout.map_fst_placed (Block.program _), List.mem_map] at hs
  obtain ⟨x, hx, rfl⟩ := hs
  obtain ⟨c, -, -, hlabel, ⟨hop, -⟩ | ⟨hop, -⟩⟩ := mem_placed_reload hx
  · exact ⟨hlabel, _, hop⟩
  · exact ⟨hlabel, _, hop⟩

theorem filterMap_label_reload :
    (Block.program (reloadBlocks file number cells)).filterMap (·.label) = [] := by
  rw [List.filterMap_eq_nil_iff]
  intro s hs
  exact (directive_of_mem_reload hs).1

/-- Nothing in the lines of words can be refused, whatever the settings. -/
theorem acceptable_reload (h : ∀ c ∈ cells, c.address ≤ wordMax) (settings : Settings) :
    Acceptable settings (Layout.placed (Block.program (reloadBlocks file number cells))) := by
  refine ⟨?_, ?_, ?_⟩
  · intro x hx
    obtain ⟨c, hc, haddress, -, hread⟩ := mem_placed_reload hx
    refine ⟨?_, haddress ▸ h c hc⟩
    intro horg
    rcases hread with ⟨-, hoperand⟩ | ⟨hop, -⟩
    · rw [hoperand]
      exact isHexLiteral_hex (h c hc)
    · rw [hop] at horg
      cases horg
  · rw [Layout.map_fst_placed, filterMap_label_reload]
    exact List.nodup_nil
  · intro x hx hbad
    obtain ⟨c, hc, -, -, ⟨hop, -⟩ | ⟨hop, hoperand⟩⟩ := mem_placed_reload hx
    · exact hbad.stores.1 hop
    · have hlit : IsHexLiteral x.1.operand := by
        rw [hoperand]
        exact isHexLiteral_hex c.word.toNat_le_wordMax
      rcases hbad with ⟨hdec, -⟩ | ⟨-, hnot⟩ | ⟨-, ⟨op, hmem⟩, -⟩
      · rw [hop] at hdec
        cases hdec
      · exact hnot hlit
      · rw [hop] at hmem
        cases hmem

theorem encode_ofOperand_hex (settings : Settings) (labels : LabelTable) (w : Word) (number : Nat)
    (file : Option String) :
    (SourceStatement.ofOperand (.directive .hexadecimal) w.hex number file).encode settings labels =
      .ok (w, []) := by
  have hread : (SourceStatement.ofOperand (.directive .hexadecimal) w.hex number file).hexOperand =
      .ok w.toNat := by
    rw [SourceStatement.hexOperand_of_isHexLiteral (isHexLiteral_hex w.toNat_le_wordMax),
      originValue_hex rfl]
  have hword : Word.ofInt w.toNat = w := by
    rw [Word.ofInt, BitVec.ofInt_natCast, BitVec.ofNat_toNat, BitVec.setWidth_eq]
  rw [SourceStatement.encode_hexadecimal rfl hread, hword]

theorem cells_reloadBlock (settings : Settings) (labels : LabelTable) (c : Cell) :
    ((Layout.placed (reloadBlock file number c).statements).filterMap
      (Emission.cellAt settings labels)).map (fun c => (c.address, c.word)) =
      [(c.address, c.word)] := by
  have hstores : (SourceStatement.ofOperand (.directive .hexadecimal) c.word.hex (number + 1)
      file).Stores := ⟨nofun, nofun⟩
  have hword := Emission.cellAt_of_encode hstores
    (encode_ofOperand_hex settings labels c.word (number + 1) file) c.address
  have horigin : Emission.cellAt settings labels
      (.ofOperand .org (Numeral.hex 4 c.address) number file, c.address) = none :=
    Emission.cellAt_of_not_stores (fun hs => hs.1 rfl) c.address
  rw [placed_reloadBlock]
  simp only [List.filterMap_cons, horigin, hword, List.filterMap_nil, List.map_cons, List.map_nil]

theorem cells_reload (settings : Settings) (labels : LabelTable) :
    ((reloadBlocks file number cells).flatMap fun block =>
      (Layout.placed block.statements).filterMap (Emission.cellAt settings labels)).map
        (fun c => (c.address, c.word)) = cells.map fun c => (c.address, c.word) := by
  induction cells generalizing number with
  | nil => rfl
  | cons c cells ih =>
    rw [reloadBlocks, List.flatMap_cons, List.map_append, ih, cells_reloadBlock]
    rfl

end Reload

namespace Assembly

variable {settings : Settings} {p : List SourceStatement} {a : Assembly}

theorem address_le_of_mem_cells (h : assemble settings p = .ok a) {c : Cell} (hc : c ∈ a.cells) :
    c.address ≤ wordMax := by
  rw [cells_of_assemble h, List.mem_filterMap] at hc
  obtain ⟨⟨s, address⟩, hx, hcell⟩ := hc
  obtain ⟨k, hk, haddress⟩ := Layout.mem_placed_iff.1 hx
  -- the first pass lets only an end stand beyond the last address, and an end stores nothing
  have hstores : s.Stores := by
    by_contra hs
    rw [Emission.cellAt_of_not_stores hs] at hcell
    cases hcell
  have hle : address ≤ wordMax := by
    obtain ⟨es, state, es', counter, hrun, -, rfl⟩ := assemble_eq_ok h
    have hplaced : ¬ Layout.Overflows ((throughEnd p).take k) s := fun hover =>
      Layout.not_refusedAt_of_run hrun k ⟨s, hk, Or.inr (Or.inl hover)⟩
    have hle := (Layout.not_overflows_iff.1 hplaced).resolve_right fun hfin => hstores.2 hfin.1
    rw [Layout.getElem?_addresses, hk] at haddress
    have heq : Layout.addressOf (Layout.counterAfter ((throughEnd p).take k)) s = address :=
      Option.some.inj haddress
    rwa [heq] at hle
  obtain ⟨r, hr⟩ := encode_of_assemble h (List.mem_of_getElem? hk) hstores
  rw [Emission.cellAt_of_encode hstores hr] at hcell
  cases hcell
  exact hle

/-- The row of a word in the object file: four hexadecimal digits of its address in upper case, a
blank, the sixteen binary digits of the word, and a line feed. -/
def IsObjectRow (c : Cell) (row : List Char) : Prop :=
  ∃ address word : List Char, row = address ++ ' ' :: word ++ ['\n'] ∧
    address.length = 4 ∧ (∀ d ∈ address, Numeral.isUpperHexDigit d = true) ∧
    Numeral.value 16 address = c.address ∧
    word.length = 16 ∧ (∀ d ∈ word, d = '0' ∨ d = '1') ∧
    Word.ofBinary (String.ofList word) = .ok c.word

theorem isObjectRow_objectRow {c : Cell} (h : c.address ≤ wordMax) :
    IsObjectRow c (objectRow c).toList := by
  have hlt : c.address < 16 ^ 4 := by
    have hmax : wordMax = 65535 := rfl
    omega
  refine ⟨(Numeral.hex 4 c.address).toList, c.word.binary.toList, ?_,
    Numeral.length_padded (by decide) (by decide) hlt, ?_, ?_, c.word.length_binary, ?_, ?_⟩
  · rw [objectRow, String.toList_append, String.toList_append, String.toList_append,
      List.append_assoc (Numeral.hex 4 c.address).toList]
    rfl
  · intro d hd
    exact Numeral.isUpperHexDigit_of_mem_hex hd
  · exact Numeral.value_padded (by decide) (by decide)
  · intro d hd
    exact c.word.binary_digit hd
  · rw [String.ofList_toList]
    exact c.word.ofBinary_binary

/-- A row of the object file without its line feed. -/
def objectLine (c : Cell) : String :=
  Numeral.hex 4 c.address ++ " " ++ c.word.binary

theorem not_break_of_mem_objectLine (c : Cell) :
    ∀ d ∈ (objectLine c).toList, Text.isBreak d = false := by
  intro d hd
  rw [objectLine, String.toList_append, String.toList_append, List.mem_append,
    List.mem_append] at hd
  rcases hd with (hd | hd) | hd
  · exact Text.not_break_of_not_blank (Numeral.not_blank_of_mem_hex hd)
  · rw [List.mem_singleton.1 hd]
    decide
  · rcases c.word.binary_digit hd with rfl | rfl <;> decide

theorem lines_objectFile (a : Assembly) : Text.lines a.objectFile = a.cells.map objectLine := by
  have hrows : a.objectFile = String.join ((a.cells.map objectLine).map (· ++ "\n")) := by
    rw [List.map_map]
    rfl
  rw [hrows, Text.lines_join (List.forall_mem_map.2 fun c _ => not_break_of_mem_objectLine c)]

theorem objectFile_congr {b : Assembly}
    (h : b.cells.map (fun c => (c.address, c.word)) = a.cells.map fun c => (c.address, c.word)) :
    b.objectFile = a.objectFile := by
  have hrows : ∀ cells : List Cell, cells.map objectRow =
      (cells.map fun c => (c.address, c.word)).map
        fun x => Numeral.hex 4 x.1 ++ " " ++ x.2.binary ++ "\n" := by
    intro cells
    rw [List.map_map]
    rfl
  rw [objectFile, objectFile, hrows, hrows, h]

theorem assemble_reload (h : ∀ c ∈ a.cells, c.address ≤ wordMax) (file : Option String)
    (settings : Settings) :
    ∃ b, assemble settings (Block.program (reloadBlocks file 1 a.cells)) = .ok b := by
  -- what the strictest settings accept, all settings assemble
  have hstrict : ∃ b, assemble { strictLabels := true }
      (Block.program (reloadBlocks file 1 a.cells)) = .ok b :=
    (exists_assemble_iff_acceptable rfl (Block.program_endless _)).2 (acceptable_reload h _)
  obtain ⟨b, hb⟩ := hstrict
  exact ⟨b, assemble_of_tolerates ⟨fun _ => rfl, fun hr => absurd hr Bool.false_ne_true⟩ hb⟩

section Reloaded

variable {file : Option String} {number : Nat} {cells : List Cell} {b : Assembly}

theorem bindings_of_reload
    (h : assemble settings (Block.program (reloadBlocks file number cells)) = .ok b) :
    b.labels.bindings = [] := by
  obtain ⟨es, state, es', counter, hrun, -, rfl⟩ := assemble_eq_ok h
  have hlabels := Layout.run_labels hrun
  rw [Block.throughEnd_program, filterMap_label_reload] at hlabels
  exact List.map_eq_nil_iff.1 hlabels

theorem warnings_of_reload
    (h : assemble settings (Block.program (reloadBlocks file number cells)) = .ok b) :
    b.warnings = [] := by
  rw [warnings_of_assemble h, Block.throughEnd_program, List.append_eq_nil_iff]
  refine ⟨?_, ?_⟩
  · rw [List.map_eq_nil_iff, List.eq_nil_iff_forall_not_mem]
    intro r hr
    obtain ⟨k, -, hk, hlabel, -⟩ := Layout.mem_redefinitions_iff.1 hr
    obtain ⟨c, -, -, hnone, -⟩ := mem_placed_reload (List.mem_of_getElem? hk)
    rw [hlabel] at hnone
    cases hnone
  · rw [List.filterMap_eq_nil_iff]
    intro s hs
    obtain ⟨-, d, hop⟩ := directive_of_mem_reload hs
    exact SourceStatement.remark?_of_directive hop

end Reloaded

/-- The words of an assembly are a program again. The rows of its object file are made of the digits
of an address and of a word. An origin and a hexadecimal word for each row are assembled under any
settings, without a warning or a label, to the same words at the same addresses, and so to the same
object file. -/
theorem object_reassembles (h : assemble settings p = .ok a) (s : Session)
    (file : Option String) :
    (∀ c ∈ a.cells, IsObjectRow c (objectRow c).toList) ∧
    Text.lines a.objectFile = a.cells.map objectLine ∧
    ∃ b, (s.assembleLines (reloadLines a.cells) file).2.result = .ok b ∧
      (s.assembleLines (reloadLines a.cells) file).1.last = some b ∧
      b.warnings = [] ∧ b.labels.bindings = [] ∧
      b.cells.map (fun c => (c.address, c.word)) = a.cells.map (fun c => (c.address, c.word)) ∧
      b.objectFile = a.objectFile := by
  have haddress : ∀ c ∈ a.cells, c.address ≤ wordMax := fun c hc => address_le_of_mem_cells h hc
  refine ⟨fun c hc => isObjectRow_objectRow (haddress c hc), lines_objectFile a, ?_⟩
  have hread : SourceStatement.ofLines (reloadLines a.cells) file =
      .ok (Block.program (reloadBlocks file 1 a.cells)) := mapM_reloadLines file haddress 1
  obtain ⟨b, hb⟩ := assemble_reload haddress file s.settings
  -- each block stores its own word, so the blocks in order store the words in order
  have hcells : b.cells.map (fun c => (c.address, c.word)) =
      a.cells.map fun c => (c.address, c.word) := by
    rw [cells_of_blocks hb]
    exact cells_reload _ _
  refine ⟨b, ?_, ?_, warnings_of_reload hb, bindings_of_reload hb, hcells, objectFile_congr hcells⟩
  · unfold Session.assembleLines Session.assembleRead Session.assembleStatements
    simp only [hread, hb]
  · unfold Session.assembleLines Session.assembleRead Session.assembleStatements
    simp only [hread, hb]

/-- A word at the last address, and two words at one address before it. -/
def overlappingProgram : List SourceStatement :=
  [⟨⟨none, .org, some "FFFF", false⟩, {}⟩,
   ⟨⟨some "LAST", .memory .bun, some "LAST", true⟩, {}⟩,
   ⟨⟨none, .org, some "1A", false⟩, {}⟩,
   ⟨⟨none, .directive .decimal, some "-2", false⟩, {}⟩,
   ⟨⟨none, .org, some "1a", false⟩, {}⟩,
   ⟨⟨some "LOW", .register .hlt, some "LOW", false⟩, {}⟩]

theorem object_reassembles_overlapping :
    ∃ a b, assemble {} overlappingProgram = .ok a ∧ a.warnings.length = 2 ∧
      (({ settings := { strictLabels := true } } : Session).assembleLines
        (reloadLines a.cells) none).2.result = .ok b ∧
      b.warnings = [] ∧
      b.cells.map (fun c => (c.address, c.word)) =
        [(0xFFFF, 0xCFFF), (0x1A, 0xFFFE), (0x1A, 0x7001)] ∧
      b.objectFile = a.objectFile := by
  obtain ⟨a, ha⟩ : ∃ a, assemble {} overlappingProgram = .ok a := ⟨_, rfl⟩
  obtain ⟨-, -, b, hb, -, hwarnings, -, hcells, hfile⟩ :=
    object_reassembles ha { settings := { strictLabels := true } } none
  refine ⟨a, b, ha, ?_, hb, hwarnings, ?_, hfile⟩
  · cases ha
    rfl
  · rw [hcells]
    cases ha
    rfl

end Assembly

end TwoPass
