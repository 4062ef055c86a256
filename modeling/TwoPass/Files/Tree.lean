import TwoPass.Files.Path
import TwoPass.Text.Numeral
import TwoPass.Text.Quoted

/-!
# File trees

A file tree has directories, files with their bytes, and a current directory where relative paths
start. Places in it are the names from the root down.

Reading and writing follow a path through existing directories only. Resolving a path is a matter of
its text alone. The names on a path, and its text, have a limited number of bytes.
-/

namespace TwoPass

/-- The causes for which a file cannot be used. -/
inductive FileErrorKind where
  | missing | denied | notDirectory | isDirectory | nameTooLong
  deriving DecidableEq, Repr

/-- A failed use of a file: the cause, its number and description, and the path as it was given. -/
structure FileError where
  kind : FileErrorKind
  number : Int
  description : String
  path : String
  deriving DecidableEq, Repr

def FileError.message (e : FileError) : String :=
  "[Errno " ++ Numeral.decimal e.number ++ "] " ++ e.description ++ ": " ++ Text.quoted e.path

def FileErrorKind.at (kind : FileErrorKind) (path : String) : FileError :=
  match kind with
  | .missing => ⟨kind, 2, "No such file or directory", path⟩
  | .denied => ⟨kind, 13, "Permission denied", path⟩
  | .notDirectory => ⟨kind, 20, "Not a directory", path⟩
  | .isDirectory => ⟨kind, 21, "Is a directory", path⟩
  | .nameTooLong => ⟨kind, 36, "File name too long", path⟩

/-- The refusal of a text that holds a NUL, which no path can. -/
structure EmbeddedNul where
  text : String
  deriving DecidableEq, Repr

def EmbeddedNul.message (_ : EmbeddedNul) : String :=
  "embedded null byte"

/-- Why a path cannot be used: it is no path at all, or the file it leads to cannot be used. -/
inductive AccessError where
  | nul (e : EmbeddedNul)
  | refused (e : FileError)
  deriving DecidableEq, Repr

def AccessError.message : AccessError → String
  | .nul e => e.message
  | .refused e => e.message

/-- The names from the root down to a place. -/
abbrev Place := List String

structure FileTree where
  current : Place
  directories : List Place
  files : List (Place × ByteArray)

namespace FileTree

/-- What stands at a place. -/
inductive Entry where
  | directory
  | file
  deriving DecidableEq, Repr

/-- The root and the current directory are always there. -/
def isDirectory (t : FileTree) (place : Place) : Bool :=
  place.isEmpty || place == t.current || t.directories.contains place

def file? (t : FileTree) (place : Place) : Option ByteArray :=
  t.files.lookup place

def entry? (t : FileTree) (place : Place) : Option Entry :=
  if t.isDirectory place then some .directory
  else if (t.file? place).isSome then some .file
  else none

/-- The place that a name leads to. -/
def step (place : Place) (name : String) : Place :=
  if name = ".." then place.dropLast
  else if name = "." then place
  else place ++ [name]

/-- The most bytes of a name. -/
def maxNameBytes : Nat := 255

/-- The most bytes of a path's text. -/
def maxPathBytes : Nat := 4095

/-- Follows names from a place. Every place on the way must be a directory; the last one need not
exist. -/
def follow (t : FileTree) (place : Place) : List String → Except FileErrorKind Place
  | [] => .ok place
  | name :: rest =>
    match t.entry? place with
    | some .directory =>
      if maxNameBytes < name.utf8ByteSize then .error .nameTooLong
      else t.follow (step place name) rest
    | some .file => .error .notDirectory
    | none => .error .missing

/-- Where a path starts. -/
def start (t : FileTree) (root : String) : Place :=
  if root = "" then t.current else []

/-- The place that names lead to, which are those of a path with the given root and text. -/
def walk (t : FileTree) (root text : String) (names : List String) : Except FileErrorKind Place :=
  if maxPathBytes < text.utf8ByteSize then .error .nameTooLong
  else t.follow (t.start root) names

/-- The place that a path leads to. -/
def locate (t : FileTree) (p : Path) : Except AccessError Place :=
  if Path.holdsNul p.text then .error (.nul ⟨p.text⟩)
  else
    match t.walk p.root p.text p.parts with
    | .error kind => .error (.refused (kind.at p.text))
    | .ok place => .ok place

/-- The place that a path names by its text, whether or not it can be followed. -/
def resolve (t : FileTree) (p : Path) : Place :=
  p.parts.foldl step (t.start p.root)

/-- What the text of a path leads to, if anything. A separator at its end asks for a directory, and
the empty text leads nowhere. -/
def examine (t : FileTree) (text : String) : Except EmbeddedNul (Option Entry) :=
  let names := (Path.pieces text).filter (· != "")
  let names := if text.toList.getLast? == some '/' then names ++ ["."] else names
  if Path.holdsNul text then .error ⟨text⟩
  else if text = "" then .ok none
  else
    match t.walk (Path.ofString text).root text names with
    | .ok place => .ok (t.entry? place)
    | .error _ => .ok none

/-- The bytes of a file. -/
def read (t : FileTree) (p : Path) : Except AccessError ByteArray :=
  match t.locate p with
  | .error e => .error e
  | .ok place =>
    if t.isDirectory place then .error (.refused (FileErrorKind.isDirectory.at p.text))
    else
      match t.file? place with
      | some bytes => .ok bytes
      | none => .error (.refused (FileErrorKind.missing.at p.text))

/-- The tree with bytes put at a place. -/
def put (t : FileTree) (place : Place) (bytes : ByteArray) : FileTree :=
  { t with files := (place, bytes) :: t.files.filter (·.1 != place) }

theorem lookup_filter_ne {place other : Place} (h : other ≠ place)
    (files : List (Place × ByteArray)) :
    (files.filter (·.1 != place)).lookup other = files.lookup other := by
  induction files with
  | nil => rfl
  | cons f fs ih =>
    obtain ⟨q, bytes⟩ := f
    by_cases hq : q = place
    · have ho : (other == q) = false := by simpa [hq] using h
      have hf : (q != place) = false := by simpa using hq
      rw [List.filter_cons, hf, if_neg Bool.false_ne_true, ih, List.lookup_cons, ho]
    · have hf : (q != place) = true := by simpa using hq
      rw [List.filter_cons, if_pos hf, List.lookup_cons, List.lookup_cons, ih]

theorem file?_put (t : FileTree) (place other : Place) (bytes : ByteArray) :
    (t.put place bytes).file? other = if other = place then some bytes else t.file? other := by
  unfold file? put
  split
  · rename_i h
    simp [h]
  · rename_i h
    have hb : (other == place) = false := by simpa using h
    simp only [List.lookup_cons, hb]
    exact lookup_filter_ne h t.files

/-- Writes a file, in place of the one that was there. -/
def write (t : FileTree) (p : Path) (bytes : ByteArray) : Except AccessError FileTree :=
  match t.locate p with
  | .error e => .error e
  | .ok place =>
    if t.isDirectory place then .error (.refused (FileErrorKind.isDirectory.at p.text))
    else .ok (t.put place bytes)

end FileTree

end TwoPass
