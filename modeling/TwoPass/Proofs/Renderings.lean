import TwoPass.Proofs.AddressSpace
import TwoPass.Proofs.Commands
import TwoPass.Proofs.Rows

/-!
# The renderings of the words

The object file, the listing and the printed words are three texts of rows, and row by row they show
the same words at the same addresses. The columns of a row are fixed because addresses have at most
four hexadecimal digits, and the rows are those of the words because no label and no operand that
was read from a text has a line feed in it.
-/

namespace TwoPass

/-- Programs that were read from a text: a source text, or lines that are texts themselves. -/
inductive ReadFromText (p : List SourceStatement) : Prop
  | source (source : String) (file : Option String) (commentChars : String) :
      SourceStatement.ofSource source file commentChars = .ok p → ReadFromText p
  | lines (lines : List String) (file : Option String) :
      SourceStatement.ofLines (lines.map .text) file = .ok p → ReadFromText p

section OneLine

theorem oneLine_of_subset {a b : String} (h : a.toList ⊆ b.toList) (hb : OneLine b) : OneLine a :=
  fun ha => hb (h ha)

theorem OneLine.beside {a b : String} (ha : OneLine a) (hb : OneLine b) : OneLine (a ++ "  " ++ b) :=
  (ha.append (by decide)).append hb

theorem oneLine_trim {text : String} (h : OneLine text) : OneLine (Text.trim text) := by
  refine oneLine_of_subset ?_ h
  intro c hc
  rw [Text.trim, String.toList_ofList, List.mem_reverse] at hc
  exact List.dropWhile_subset _ (List.mem_reverse.1 (List.dropWhile_subset _ hc))

theorem oneLine_intercalate {parts : List String} (h : ∀ part ∈ parts, OneLine part) :
    OneLine (" ".intercalate parts) := by
  induction parts with
  | nil => decide
  | cons part parts ih =>
    obtain ⟨hpart, hrest⟩ := List.forall_mem_cons.1 h
    cases parts with
    | nil =>
      rw [String.intercalate_singleton]
      exact hpart
    | cons next parts =>
      rw [String.intercalate_cons_cons]
      exact (hpart.append (by decide)).append (ih hrest)

theorem oneLine_alignRight (width : Nat) {text : String} (h : OneLine text) :
    OneLine (Text.alignRight width text) := by
  intro hc
  rw [Text.alignRight, String.toList_ofList, List.leftpad, List.mem_append,
    List.mem_replicate] at hc
  rcases hc with ⟨-, hblank⟩ | hc
  · exact absurd hblank (by decide)
  · exact h hc

theorem oneLine_alignLeft (width : Nat) {text : String} (h : OneLine text) :
    OneLine (Text.alignLeft width text) := by
  intro hc
  rw [Text.alignLeft, String.toList_ofList, List.rightpad, List.mem_append,
    List.mem_replicate] at hc
  rcases hc with hc | ⟨-, hblank⟩
  · exact h hc
  · exact absurd hblank (by decide)

theorem Word.oneLine_binary (w : Word) : OneLine w.binary :=
  oneLine_padded (by decide) (by decide) wordBits w.toNat

theorem Word.oneLine_hex (w : Word) : OneLine w.hex :=
  oneLine_padded (by decide) (by decide) 4 w.toNat

end OneLine

namespace Statement

variable {s : Statement}

/-- A statement whose label and operand have no line feed in them. -/
def OneLine (s : Statement) : Prop :=
  ∀ text, s.label = some text ∨ s.operand = some text → TwoPass.OneLine text

theorem OneLine.text (h : s.OneLine) : TwoPass.OneLine s.text := by
  refine oneLine_trim (oneLine_intercalate ?_)
  simp only [List.forall_mem_append, List.forall_mem_cons]
  refine ⟨⟨⟨?_, oneLine_mnemonic s.op, nofun⟩, ?_⟩, ?_⟩
  · cases hlabel : s.label with
    | none => decide
    | some label => exact h label (Or.inl hlabel)
  · intro operand hoperand
    exact h operand (Or.inr (Option.mem_toList.1 hoperand))
  · intro mark hmark
    split at hmark
    · rw [List.mem_singleton.1 hmark]
      decide
    · cases hmark

end Statement

theorem ReadFromText.not_blank {p : List SourceStatement} (h : ReadFromText p)
    {s : SourceStatement} (hs : s ∈ p) {text : String}
    (htext : s.label = some text ∨ s.operand = some text) :
    ∀ c ∈ text.toList, Text.isBlank c = false := by
  cases h with
  | source source file commentChars hread =>
    exact (SourceStatement.of_mem_ofSource hread hs).2 text htext
  | lines lines file hread =>
    obtain ⟨⟨line, number⟩, hline, hstatement⟩ := exists_of_mem_mapM hread hs
    obtain ⟨line, -, rfl⟩ := List.mem_map.1 (List.fst_mem_of_mem_zipIdx hline)
    obtain ⟨t, ht, rfl⟩ := (SourceStatement.ofTokens_eq_ok hstatement).2 text htext
    exact Token.not_blank_of_mem_scan ht

theorem ReadFromText.oneLine {p : List SourceStatement} (h : ReadFromText p) {s : SourceStatement}
    (hs : s ∈ p) : s.OneLine :=
  fun _ htext => oneLine_of_not_blank (h.not_blank hs htext)

namespace Assembly

/-- The columns of the object file. -/
def objectFormat : RowFormat where
  marks := [(4, " ")]
  addresses := [⟨16, 0, 4, false⟩]
  words := [⟨2, 5, 16, false⟩]
  width := 21

/-- The columns of the listing, after which the statement stands. -/
def listingFormat : RowFormat where
  marks := [(6, "  "), (8, "0x"), (14, "  "), (32, "  "), (38, "  ")]
  addresses := [⟨10, 0, 6, true⟩, ⟨16, 10, 4, false⟩]
  words := [⟨2, 16, 16, false⟩, ⟨16, 34, 4, false⟩]
  width := 40

/-- The columns of the printed words. -/
def printedFormat : RowFormat where
  marks := [(0, "0x"), (6, "  "), (24, "  ")]
  addresses := [⟨16, 2, 4, false⟩]
  words := [⟨2, 8, 16, false⟩, ⟨16, 26, 4, false⟩]
  width := 30

section Rows

variable {row : List Char} {first n : Nat} {c : Cell}

theorem read?_hex (hn : n ≤ wordMax) (h : columns row first 4 = (Numeral.hex 4 n).toList) :
    NumberColumns.read? ⟨16, first, 4, false⟩ row = some n := by
  have hmax : wordMax = 65535 := rfl
  have hlt : n < 16 ^ 4 := by omega
  exact NumberColumns.read?_of_padded (by decide) (by decide) (by decide) hlt h

theorem read?_binary {w : Word} (h : columns row first 16 = w.binary.toList) :
    NumberColumns.read? ⟨2, first, 16, false⟩ row = some w.toNat :=
  NumberColumns.read?_of_padded (by decide) (by decide) (by decide) w.isLt h

theorem length_hex (hn : n ≤ wordMax) : (Numeral.hex 4 n).toList.length = 4 := by
  have hmax : wordMax = 65535 := rfl
  have hlt : n < 16 ^ 4 := by omega
  exact Numeral.length_padded (by decide) (by decide) hlt

/-- The parts of a row of the object file. -/
def objectParts (c : Cell) : List (List Char) :=
  [(Numeral.hex 4 c.address).toList, " ".toList, c.word.binary.toList]

/-- The parts of a printed word. -/
def printedParts (c : Cell) : List (List Char) :=
  ["0x".toList, (Numeral.hex 4 c.address).toList, "  ".toList, c.word.binary.toList, "  ".toList,
    c.word.hex.toList]

/-- The parts of a row of the listing, which has the printed word in it. -/
def listingParts (c : Cell) : List (List Char) :=
  [(Text.alignRight 6 (Numeral.decimal c.address)).toList, "  ".toList] ++ printedParts c ++
    ["  ".toList, c.statement.text.toList]

theorem flatten_objectParts : (objectParts c).flatten = (objectLine c).toList := by
  simp [objectParts, objectLine]

theorem flatten_printedParts : (printedParts c).flatten = (printedWord c).toList := by
  simp [printedParts, printedWord, listedAddress]

theorem flatten_listingParts : (listingParts c).flatten = (listingRow c).toList := by
  simp [listingParts, printedParts, listingRow, listedAddress]

section Widths

variable (h : c.address ≤ wordMax)

include h

theorem widths_objectParts : (objectParts c).map List.length = [4, 1, 16] := by
  simp only [objectParts, List.map_cons, List.map_nil, length_hex h, c.word.length_binary]
  rfl

theorem widths_printedParts : (printedParts c).map List.length = [2, 4, 2, 16, 2, 4] := by
  have hword : c.word.hex.toList.length = 4 := length_hex c.word.toNat_le_wordMax
  simp only [printedParts, List.map_cons, List.map_nil, length_hex h, c.word.length_binary, hword]
  rfl

theorem widths_listingParts : (listingParts c).map List.length =
    [6, 2, 2, 4, 2, 16, 2, 4, 2, c.statement.text.toList.length] := by
  have hmax : wordMax = 65535 := rfl
  have hlt : c.address < 10 ^ 6 := by omega
  have hdecimal : (Text.alignRight 6 (Numeral.decimal c.address)).toList.length = 6 :=
    Numeral.length_alignRight (by decide) c.address (by decide) hlt
  rw [listingParts, List.map_append, List.map_append, widths_printedParts h, List.map_cons,
    hdecimal]
  rfl

theorem read?_objectLine :
    objectFormat.read? (objectLine c).toList = some ⟨c.address, c.word.toNat, ""⟩ := by
  have hwidths := widths_objectParts h
  rw [← flatten_objectParts]
  apply RowFormat.read?_eq_some
  · exact List.forall_mem_singleton.2 (columns_flatten hwidths 1 rfl rfl)
  · exact ⟨List.cons_ne_nil _ _, List.forall_mem_singleton.2
      (read?_hex h (columns_flatten hwidths 0 rfl rfl))⟩
  · exact ⟨List.cons_ne_nil _ _, List.forall_mem_singleton.2
      (read?_binary (columns_flatten hwidths 2 rfl rfl))⟩
  · exact drop_flatten hwidths 3

theorem read?_printedWord :
    printedFormat.read? (printedWord c).toList = some ⟨c.address, c.word.toNat, ""⟩ := by
  have hwidths := widths_printedParts h
  rw [← flatten_printedParts]
  apply RowFormat.read?_eq_some
  · exact List.forall_mem_cons.2 ⟨columns_flatten hwidths 0 rfl rfl,
      List.forall_mem_cons.2 ⟨columns_flatten hwidths 2 rfl rfl,
      List.forall_mem_singleton.2 (columns_flatten hwidths 4 rfl rfl)⟩⟩
  · exact ⟨List.cons_ne_nil _ _, List.forall_mem_singleton.2
      (read?_hex h (columns_flatten hwidths 1 rfl rfl))⟩
  · exact ⟨List.cons_ne_nil _ _, List.forall_mem_cons.2
      ⟨read?_binary (columns_flatten hwidths 3 rfl rfl), List.forall_mem_singleton.2
      (read?_hex c.word.toNat_le_wordMax (columns_flatten hwidths 5 rfl rfl))⟩⟩
  · exact drop_flatten hwidths 6

theorem read?_listingRow :
    listingFormat.read? (listingRow c).toList =
      some ⟨c.address, c.word.toNat, c.statement.text⟩ := by
  have hmax : wordMax = 65535 := rfl
  have hlt : c.address < 10 ^ 6 := by omega
  have hwidths := widths_listingParts h
  rw [← flatten_listingParts]
  apply RowFormat.read?_eq_some
  · exact List.forall_mem_cons.2 ⟨columns_flatten hwidths 1 rfl rfl,
      List.forall_mem_cons.2 ⟨columns_flatten hwidths 2 rfl rfl,
      List.forall_mem_cons.2 ⟨columns_flatten hwidths 4 rfl rfl,
      List.forall_mem_cons.2 ⟨columns_flatten hwidths 6 rfl rfl,
      List.forall_mem_singleton.2 (columns_flatten hwidths 8 rfl rfl)⟩⟩⟩⟩
  · -- the address is read twice, in two bases
    have hdecimal := NumberColumns.read?_of_alignRight (by decide : 1 < 10) (by decide)
      (by decide : 0 < 6) hlt (columns_flatten hwidths 0 rfl rfl)
    exact ⟨List.cons_ne_nil _ _, List.forall_mem_cons.2 ⟨hdecimal, List.forall_mem_singleton.2
      (read?_hex h (columns_flatten hwidths 3 rfl rfl))⟩⟩
  · exact ⟨List.cons_ne_nil _ _, List.forall_mem_cons.2
      ⟨read?_binary (columns_flatten hwidths 5 rfl rfl), List.forall_mem_singleton.2
      (read?_hex c.word.toNat_le_wordMax (columns_flatten hwidths 7 rfl rfl))⟩⟩
  · exact (drop_flatten hwidths 9).trans List.flatten_singleton

end Widths

end Rows

/-- The printed words, each on a row of its own. -/
def printedWords (a : Assembly) : String :=
  String.join (a.cells.map fun c => printedWord c ++ "\n")

/-- The rows of the listing. -/
def listingLines (a : Assembly) : List String :=
  [listingHeader] ++ a.cells.map listingRow ++ ["", "Symbol table:"] ++
    a.labels.sorted.map listingLabel

theorem length_listingLines (a : Assembly) :
    a.listingLines.length = a.cells.length + a.labels.size + 3 := by
  have hsorted : a.labels.sorted.length = a.labels.size := List.length_mergeSort _
  simp only [listingLines, List.length_append, List.length_map, List.length_cons, List.length_nil,
    hsorted]
  omega

theorem oneLine_objectLine (c : Cell) : OneLine (objectLine c) :=
  ((oneLine_padded (by decide) (by decide) 4 c.address).append (by decide)).append
    c.word.oneLine_binary

theorem oneLine_listedAddress (address : Nat) : OneLine (listedAddress address) :=
  .append (by decide) (oneLine_padded (by decide) (by decide) 4 address)

theorem oneLine_printedWord (c : Cell) : OneLine (printedWord c) :=
  ((oneLine_listedAddress c.address).beside c.word.oneLine_binary).beside c.word.oneLine_hex

theorem oneLine_listingRow {c : Cell} (h : c.statement.OneLine) : OneLine (listingRow c) := by
  have hdecimal : OneLine (Text.alignRight 6 (Numeral.decimal c.address)) :=
    oneLine_alignRight 6 (oneLine_padded (by decide) (by decide) 0 c.address)
  exact (((hdecimal.beside (oneLine_listedAddress c.address)).beside
    c.word.oneLine_binary).beside c.word.oneLine_hex).beside h.text

theorem getElem?_listingLines {a : Assembly} {i : Nat} {c : Cell} (h : a.cells[i]? = some c) :
    a.listingLines[i + 1]? = some (listingRow c) := by
  obtain ⟨hi, rfl⟩ := List.getElem?_eq_some_iff.1 h
  simp [listingLines, List.getElem?_append, hi]

theorem hasRows_objectFile (a : Assembly) :
    HasRows a.objectFile ((a.cells.map objectLine).map String.toList) := by
  have hrows : a.objectFile = String.join ((a.cells.map objectLine).map (· ++ "\n")) := by
    rw [List.map_map]
    rfl
  rw [hrows]
  exact hasRows_join (List.forall_mem_map.2 fun c _ => oneLine_objectLine c)

theorem hasRows_printedWords (a : Assembly) :
    HasRows a.printedWords ((a.cells.map printedWord).map String.toList) := by
  have hrows : a.printedWords = String.join ((a.cells.map printedWord).map (· ++ "\n")) := by
    rw [List.map_map]
    rfl
  rw [hrows]
  exact hasRows_join (List.forall_mem_map.2 fun c _ => oneLine_printedWord c)

section Assembled

variable {settings : Settings} {p : List SourceStatement} {a : Assembly}
  (h : assemble settings p = .ok a)

include h

theorem statement_mem_of_mem_cells {c : Cell} (hc : c ∈ a.cells) : c.statement ∈ p := by
  rw [cells_of_assemble h, List.mem_filterMap] at hc
  obtain ⟨⟨s, address⟩, hx, hcell⟩ := hc
  obtain ⟨k, hk, -⟩ := Layout.mem_placed_iff.1 hx
  have hs : s ∈ p := mem_of_mem_throughEnd (List.mem_of_getElem? hk)
  unfold Emission.cellAt at hcell
  split at hcell
  · split at hcell
    · cases hcell
      exact hs
    · cases hcell
  · cases hcell

theorem exists_label_of_mem_bindings {b : Binding} (hb : b ∈ a.labels.bindings) :
    ∃ s ∈ p, s.label = some b.label := by
  obtain ⟨es, state, es', counter, hrun, -, rfl⟩ := assemble_eq_ok h
  have hfound : state.labels.find? b.label = some b := LabelTable.find?_of_mem hb
  rw [Layout.run_find? hrun, Layout.binding?, Option.map_eq_some_iff] at hfound
  obtain ⟨x, hx, -⟩ := hfound
  obtain ⟨hmem, hlabel⟩ := Layout.lastLabelled_eq_some hx
  obtain ⟨k, hk, -⟩ := Layout.mem_placed_iff.1 hmem
  exact ⟨x.1, mem_of_mem_throughEnd (List.mem_of_getElem? hk), hlabel⟩

theorem oneLine_listingLabel (hp : ReadFromText p) {b : Binding} (hb : b ∈ a.labels.sorted) :
    OneLine (listingLabel b) := by
  have hmem : b ∈ a.labels.bindings := List.mem_mergeSort.1 hb
  obtain ⟨s, hs, hlabel⟩ := exists_label_of_mem_bindings h hmem
  obtain ⟨address, -, hvalue⟩ := binding_le_of_assemble h hmem
  have hshown : OneLine (Numeral.address b.value) := by
    rw [hvalue]
    exact .append (by decide) (oneLine_padded (by decide) (by decide) 4 address)
  exact ((oneLine_alignLeft 20 (hp.oneLine hs _ (Or.inl hlabel))).append (by decide)).append hshown

theorem hasRows_listing (hp : ReadFromText p) :
    HasRows a.listing (a.listingLines.map String.toList) := by
  have htext : a.listing = String.join (a.listingLines.map (· ++ "\n")) :=
    (join_lines (List.append_ne_nil_of_left_ne_nil (List.cons_ne_nil _ _) _)).symm
  rw [htext]
  apply hasRows_join
  simp only [listingLines, List.forall_mem_append, List.forall_mem_cons, List.forall_mem_map]
  refine ⟨⟨⟨⟨by decide, nofun⟩, ?_⟩, by decide, by decide, nofun⟩, ?_⟩
  · intro c hc
    exact oneLine_listingRow (hp.oneLine (statement_mem_of_mem_cells h hc))
  · intro b hb
    exact oneLine_listingLabel h hp hb

end Assembled

end Assembly

namespace Command

theorem standardOutput_append (xs ys : List Output) :
    standardOutput (xs ++ ys) = standardOutput xs ++ standardOutput ys := by
  unfold standardOutput
  rw [List.filterMap_append, String.join_append]

theorem standardOutput_of_err {outputs : List Output} (h : ∀ o ∈ outputs, ∃ text, o = .err text) :
    standardOutput outputs = "" := by
  unfold standardOutput
  rw [List.filterMap_eq_nil_iff.2]
  · rfl
  · intro o ho
    obtain ⟨text, rfl⟩ := h o ho
    rfl

theorem standardOutput_log (verbose : Bool) (records : List Record) :
    standardOutput (log verbose records) = "" := by
  apply standardOutput_of_err
  intro o ho
  unfold log at ho
  split at ho
  · obtain ⟨r, -, rfl⟩ := List.mem_map.1 ho
    exact ⟨_, rfl⟩
  · cases ho

theorem standardOutput_warnings (ws : List Warning) :
    standardOutput (ws.map fun w => complain w.message) = "" := by
  apply standardOutput_of_err
  intro o ho
  obtain ⟨w, -, rfl⟩ := List.mem_map.1 ho
  exact ⟨_, rfl⟩

theorem Trouble.standardOutput_report (t : Trouble) (verbose : Bool) (activity : String) :
    standardOutput (t.report verbose activity) = "" := by
  apply standardOutput_of_err
  intro o ho
  unfold report at ho
  split at ho
  · exact ⟨_, List.mem_singleton.1 ho⟩
  · rcases List.mem_cons.1 ho with rfl | ho
    · exact ⟨_, rfl⟩
    · split at ho
      · exact ⟨_, List.mem_singleton.1 ho⟩
      · cases ho
  · exact ⟨_, List.mem_singleton.1 ho⟩

theorem not_escape_of_mem_padded {base width n : Nat} (hb : 1 < base) (hle : base ≤ 16) {c : Char}
    (hc : c ∈ (Numeral.padded base width n).toList) : c ≠ Text.escape := by
  obtain ⟨d, hd, rfl⟩ := Numeral.exists_digit_of_mem_padded hb hc
  have hupper := Numeral.isUpperHexDigit_digit (Nat.lt_of_lt_of_le hd hle)
  intro hescape
  rw [hescape] at hupper
  exact absurd hupper (by decide)

/-- A printed word has no control sequence to lose. -/
theorem plain_printedWord (c : Cell) :
    Text.plain (Assembly.printedWord c) = Assembly.printedWord c := by
  apply Text.plain_of_no_escape
  intro hescape
  simp only [Assembly.printedWord, Assembly.listedAddress, String.toList_append,
    List.mem_append] at hescape
  rcases hescape with ((((h | h) | h) | h) | h) | h
  · exact absurd h (by decide)
  · exact not_escape_of_mem_padded (by decide) (by decide) h rfl
  · exact absurd h (by decide)
  · exact not_escape_of_mem_padded (by decide) (by decide) h rfl
  · exact absurd h (by decide)
  · exact not_escape_of_mem_padded (by decide) (by decide) h rfl

theorem standardOutput_words (a : Assembly) :
    standardOutput (a.cells.map fun c => tell (Assembly.printedWord c)) = a.printedWords := by
  unfold standardOutput tell Assembly.printedWords
  rw [List.filterMap_map]
  simp only [plain_printedWord]
  exact congrArg String.join (congrFun List.filterMap_eq_map a.cells)

theorem standardOutput_deliverAll_words (session : Session) (a : Assembly) (tree : FileTree)
    (ds : List Delivery) :
    standardOutput (deliverAll session a tree (.words :: ds)).outputs =
      a.printedWords ++ standardOutput (deliverAll session a tree ds).outputs := by
  have houtputs : (deliverAll session a tree (.words :: ds)).outputs =
      (a.cells.map fun c => tell (Assembly.printedWord c)) ++
        (deliverAll session a tree ds).outputs :=
    (deliverAll_cons_of_none ds rfl).2.2
  rw [houtputs, standardOutput_append, standardOutput_words]

theorem outputs_deliverAll_quiet {session : Session} (hquiet : session.verbose = false)
    (a : Assembly) (tree : FileTree) {ds : List Delivery} (hds : .words ∉ ds) :
    (deliverAll session a tree ds).outputs = [] := by
  induction ds generalizing tree with
  | nil => rfl
  | cons d ds ih =>
    rw [List.mem_cons, not_or] at hds
    have hfirst : (deliver session a tree d).outputs = [] := by
      cases d with
      | words => exact absurd rfl hds.1
      | object path | listing path | symbols path =>
        unfold deliver
        rw [hquiet, ofWriting_quiet]
    cases htrouble : (deliver session a tree d).trouble with
    | some t =>
      rw [deliverAll_cons_of_some ds htrouble]
      exact hfirst
    | none =>
      rw [(deliverAll_cons_of_none ds htrouble).2.2, hfirst, ih _ hds.2]
      rfl

namespace Request

variable {environment : String → Option String} {tree : FileTree} {r : Request} {a : Assembly}

theorem overwriting?_of_sparesInput (h : r.SparesInput tree) : r.overwriting? tree = none := by
  apply List.find?_eq_none.2
  intro p hp heq
  exact h p (mem_targetPaths_iff.1 hp) (beq_iff_eq.1 heq)

/-- What is printed for a request whose input is assembled: before the deliveries only the head of
a verbose command, and after them nothing unless the command is verbose. -/
theorem standardOutput_perform (hspares : r.SparesInput tree)
    (houtcome : (Input.file r.input).outcome (r.settings environment) tree = .ok a) :
    ∃ told, standardOutput (r.perform environment tree).outputs =
        standardOutput (tellIf r.verbose ("Assembling " ++ r.input.text ++ "...")) ++
          standardOutput (r.delivered environment tree a).outputs ++ told ∧
      (r.verbose = false → told = "") := by
  have hresult := Session.assembleInput_result
    { settings := r.settings environment, verbose := r.verbose } tree (.file r.input)
  have hsession := Session.assembleInput_of_ok
    { settings := r.settings environment, verbose := r.verbose } houtcome
  rw [Session.assembleInput] at hresult hsession
  rw [houtcome] at hresult
  unfold perform
  rw [overwriting?_of_sparesInput hspares]
  dsimp only
  rw [hresult]
  dsimp only
  rw [hsession]
  cases htrouble : (r.delivered environment tree a).trouble with
  | some t =>
    unfold delivered at htrouble
    refine ⟨"", ?_, fun _ => rfl⟩
    rw [htrouble]
    simp only [Outcome.ofTrouble, standardOutput_append, standardOutput_log,
      standardOutput_warnings, Trouble.standardOutput_report, String.append_empty]
    rfl
  | none =>
    unfold delivered at htrouble
    refine ⟨standardOutput (tellIf r.verbose ("Assembly complete: " ++
        Numeral.decimal a.cells.length ++ " words") ++ tellIf r.verbose ("Defined " ++
        Numeral.decimal a.labels.size ++ " symbols")), ?_, ?_⟩
    · rw [htrouble]
      simp only [standardOutput_append, standardOutput_log, standardOutput_warnings,
        String.append_empty]
      rfl
    · intro hquiet
      rw [hquiet]
      rfl

/-- A request to print the words prints them in order, and nothing else unless it is verbose. -/
theorem standardOutput_perform_print (hspares : r.SparesInput tree)
    (houtcome : (Input.file r.input).outcome (r.settings environment) tree = .ok a)
    (hprint : r.print = true) :
    ∃ told, standardOutput (r.perform environment tree).outputs =
        standardOutput (tellIf r.verbose ("Assembling " ++ r.input.text ++ "...")) ++
          a.printedWords ++ told ∧
      (r.verbose = false → standardOutput (r.perform environment tree).outputs = a.printedWords) := by
  obtain ⟨told, hout, htold⟩ := standardOutput_perform hspares houtcome
  have hdeliveries : r.deliveries =
      .words :: ((r.listing.map .listing).toList ++ (r.symbols.map .symbols).toList) := by
    unfold deliveries
    rw [hprint]
    rfl
  have hfiles : Delivery.words ∉
      (r.listing.map Delivery.listing).toList ++ (r.symbols.map Delivery.symbols).toList := by
    simp
  rw [delivered, hdeliveries, standardOutput_deliverAll_words, ← String.append_assoc] at hout
  refine ⟨_, hout.trans String.append_assoc, ?_⟩
  intro hquiet
  rw [hout, htold hquiet, outputs_deliverAll_quiet hquiet a tree hfiles, hquiet]
  show "" ++ a.printedWords ++ "" ++ "" = a.printedWords
  rw [String.empty_append, String.append_empty, String.append_empty]

end Request

end Command

namespace Assembly

/-- The object file, the listing and the printed words agree. Each has a row for every word, in the
order of the words, in which its address and its value are read back from every place where they
stand; the rows of the listing also show the statements. A command that is asked to print the words
of its input prints those rows, and nothing else unless it is verbose. -/
theorem renderings_agree {settings : Settings} {p : List SourceStatement} {a : Assembly}
    (hp : ReadFromText p) (h : assemble settings p = .ok a) :
    ∃ object listing printed : List (List Char),
      HasRows a.objectFile object ∧ HasRows a.listing listing ∧
      HasRows a.printedWords printed ∧
      object.length = a.cells.length ∧ printed.length = a.cells.length ∧
      listing.length = a.cells.length + a.labels.size + 3 ∧
      (∀ (i : Nat) (c : Cell), a.cells[i]? = some c →
        object[i]?.bind objectFormat.read? = some ⟨c.address, c.word.toNat, ""⟩ ∧
        listing[i + 1]?.bind listingFormat.read? =
          some ⟨c.address, c.word.toNat, c.statement.text⟩ ∧
        printed[i]?.bind printedFormat.read? = some ⟨c.address, c.word.toNat, ""⟩) ∧
      ∀ (environment : String → Option String) (tree : FileTree) (args : List String)
          (r : Command.Request),
        Command.requested? tree args = some r → r.print = true → r.SparesInput tree →
        (Input.file r.input).outcome (r.settings environment) tree = .ok a →
        ∃ outcome told, Command.run environment tree args = .ok outcome ∧
          Command.standardOutput outcome.outputs =
            Command.standardOutput (Command.tellIf r.verbose
              ("Assembling " ++ r.input.text ++ "...")) ++ a.printedWords ++ told ∧
          (r.verbose = false → Command.standardOutput outcome.outputs = a.printedWords) := by
  refine ⟨_, _, _, hasRows_objectFile a, hasRows_listing h hp, hasRows_printedWords a, ?_, ?_, ?_,
    ?_, ?_⟩
  · rw [List.length_map, List.length_map]
  · rw [List.length_map, List.length_map]
  · rw [List.length_map, length_listingLines]
  · intro i c hc
    have hword := address_le_of_mem_cells h (List.mem_of_getElem? hc)
    simp only [List.getElem?_map, getElem?_listingLines hc, hc, Option.map_some, Option.bind_some]
    exact ⟨read?_objectLine hword, read?_listingRow hword, read?_printedWord hword⟩
  · intro environment tree args r hr hprint hspares houtcome
    obtain ⟨told, hout, hquiet⟩ :=
      Command.Request.standardOutput_perform_print hspares houtcome hprint
    exact ⟨_, told, (Command.run_of_requested hr).1, hout, hquiet⟩

/-- A program at the end of the memory, with labels that are not ASCII. -/
def highSource : String :=
  " ORG FFFE\nλ LDA β I\nβ DEC -1\n END\n"

def highFile : FileTree :=
  ⟨[], [], [(["p.asm"], highSource.toUTF8)]⟩

theorem renderings_agree_of_highSource :
    ∃ p a listing outcome,
      SourceStatement.ofSource highSource (some "p.asm") ";/" = .ok p ∧
      assemble {} p = .ok a ∧
      HasRows a.listing listing ∧ listing.length = 7 ∧
      listing[2]?.bind listingFormat.read? = some ⟨0xFFFF, 0xFFFF, "β DEC -1"⟩ ∧
      Command.run (fun _ => none) highFile ["p.asm", "-p"] = .ok outcome ∧
      Command.standardOutput outcome.outputs =
        "0xFFFE  1010111111111111  AFFF\n0xFFFF  1111111111111111  FFFF\n" := by
  obtain ⟨p, hp⟩ : ∃ p, SourceStatement.ofSource highSource (some "p.asm") ";/" = .ok p := ⟨_, rfl⟩
  obtain ⟨a, ha⟩ : ∃ a, assemble {} p = .ok a := by
    cases hp
    exact ⟨_, rfl⟩
  have hr : Command.requested? highFile ["p.asm", "-p"] =
      some { input := Path.ofString "p.asm", print := true } := by
    decide +kernel
  have hspares : Command.Request.SparesInput highFile
      { input := Path.ofString "p.asm", print := true } := by
    rintro q (⟨hq, -⟩ | hq | hq) <;> cases hq
  have htext : Session.readText highFile (Path.ofString "p.asm") = .ok highSource := by
    decide +kernel
  have houtcome : (Input.file (Path.ofString "p.asm")).outcome {} highFile = .ok a := by
    have hread : Assembly.ofReading {} (SourceStatement.ofSource highSource (some "p.asm") ";/") =
        .ok a := by
      rw [hp, ofReading, ha]
      rfl
    exact ((Session.assembleFile_of_ok {} htext).2.trans
      (Session.assembleSource_result {} highSource (some "p.asm"))).trans hread
  obtain ⟨_, listing, _, -, hlisting, -, -, -, hlength, hrows, hprints⟩ :=
    renderings_agree (.source _ _ _ hp) ha
  obtain ⟨outcome, -, hrun, -, hout⟩ := hprints (fun _ => none) highFile _ _ hr rfl hspares houtcome
  refine ⟨p, a, listing, outcome, hp, ha, hlisting, ?_, ?_, hrun, ?_⟩
  · rw [hlength]
    cases hp
    cases ha
    rfl
  · cases hp
    cases ha
    exact (hrows 1 _ rfl).2.1
  · rw [hout rfl]
    cases hp
    cases ha
    rfl

end Assembly

end TwoPass
