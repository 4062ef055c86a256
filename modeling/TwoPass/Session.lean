import TwoPass.Files.Tree
import TwoPass.Journal
import TwoPass.Report
import TwoPass.Statement.Reader
import TwoPass.Text.Utf8

/-!
# Sessions

A session assembles one program after another with fixed settings and keeps the last result, from
which it answers questions and writes files. What it does is noted in the journal, at a higher level
if it is verbose.

A program that fails to assemble leaves no result. A file that cannot be read leaves the former one.
-/

namespace TwoPass

/-- Why a run fails: the program is at fault, or a file cannot be used or holds no text. -/
inductive Failure where
  | fault (f : Fault)
  | file (e : AccessError)
  | undecodable (f : Utf8.Fault)
  deriving DecidableEq, Repr

def Failure.message : Failure → String
  | .fault f => f.message
  | .file e => e.message
  | .undecodable f => f.message

/-- What came of a request, and what was noted meanwhile. -/
structure Reply (α : Type) where
  records : List Record
  result : Except Failure α

/-- Where statements come from when no file is named. -/
def defaultFile : String := "<input>"

structure Session where
  settings : Settings := {}
  verbose : Bool := false
  last : Option Assembly := none

namespace Session

/-- A note of the session itself. -/
def note (s : Session) (text : String) : Record :=
  ⟨if s.verbose then .info else .debug, .session, text⟩

/-- Assembles statements. -/
def assembleStatements (s : Session) (statements : List SourceStatement) :
    Session × Reply Assembly :=
  let records := Record.ofPasses s.settings statements
  match Assembly.assemble s.settings statements with
  | .error f => ({ s with last := none }, ⟨records, .error (.fault f)⟩)
  | .ok a =>
    let done := s.note ("Generated " ++ Numeral.decimal a.cells.length ++ " words, " ++
      Numeral.decimal a.labels.size ++ " symbols")
    ({ s with last := some a }, ⟨records ++ [done], .ok a⟩)

/-- Assembles the statements that were read from a file, which the session counts as `unit`. -/
def assembleRead (s : Session) (file : Option String) (unit : String)
    (statements : Except Diagnostic (List SourceStatement)) : Session × Reply Assembly :=
  let records := Record.ofReading file statements
  match statements with
  | .error d => ({ s with last := none }, ⟨records, .error (.fault (.diagnostic d))⟩)
  | .ok statements =>
    let counted := s.note ("Parsed " ++ Numeral.decimal statements.length ++ " " ++ unit)
    let (s, reply) := s.assembleStatements statements
    (s, { reply with records := records ++ counted :: reply.records })

/-- Assembles lines, each of which must hold a statement. -/
def assembleLines (s : Session) (lines : List RawLine) (file : Option String) :
    Session × Reply Assembly :=
  s.assembleRead file "lines" (SourceStatement.ofLines lines file)

/-- Assembles a source text. -/
def assembleSource (s : Session) (source : String) (file : Option String) :
    Session × Reply Assembly :=
  s.assembleRead file "statements" (SourceStatement.ofSource source file s.settings.commentChars)

/-- The text of a file, with its line breaks unified. -/
def readText (tree : FileTree) (path : Path) : Except Failure String :=
  match tree.read path with
  | .error e => .error (.file e)
  | .ok bytes =>
    match Utf8.read bytes with
    | .error f => .error (.undecodable f)
    | .ok text => .ok (Text.unifyBreaks text)

/-- Assembles a file. -/
def assembleFile (s : Session) (tree : FileTree) (path : Path) : Session × Reply Assembly :=
  let started := s.note ("Assembling " ++ path.text ++ "...")
  match readText tree path with
  | .error f => (s, ⟨[started], .error f⟩)
  | .ok source =>
    let (s, reply) := s.assembleSource source (some path.text)
    (s, { reply with records := started :: reply.records })

/-- The last result. -/
def result (s : Session) : Except Failure Assembly :=
  match s.last with
  | some a => .ok a
  | none => .error (.fault (.diagnostic { problem := .noResult }))

/-- Whether there is a result with warnings. -/
def hasWarnings (s : Session) : Bool :=
  match s.last with
  | some a => !a.warnings.isEmpty
  | none => false

/-- Writes a text made from the last result to a file, and notes it down. -/
def write (s : Session) (tree : FileTree) (path : Path) (text : Assembly → String)
    (noted : Assembly → String) : FileTree × Reply Unit :=
  match s.result with
  | .error f => (tree, ⟨[], .error f⟩)
  | .ok a =>
    match tree.write path (text a).toUTF8 with
    | .error e => (tree, ⟨[], .error (.file e)⟩)
    | .ok tree => (tree, ⟨[s.note (noted a)], .ok ()⟩)

/-- Writes the object file. The path is noted down as it was given. -/
def writeObject (s : Session) (tree : FileTree) (path : String) : FileTree × Reply Unit :=
  s.write tree (Path.ofString path) Assembly.objectFile fun a =>
    "Wrote " ++ Numeral.decimal a.cells.length ++ " words to " ++ path

/-- Writes the listing. -/
def writeListing (s : Session) (tree : FileTree) (path : String) : FileTree × Reply Unit :=
  s.write tree (Path.ofString path) Assembly.listing fun _ => "Wrote listing to " ++ path

/-- Writes the symbol file. -/
def writeSymbols (s : Session) (tree : FileTree) (path : String) : FileTree × Reply Unit :=
  s.write tree (Path.ofString path) Assembly.symbolFile fun _ => "Wrote symbols to " ++ path

end Session

end TwoPass
