/-!
# Paths

A path is a root, which a relative path has none of, and the names on the way. Names that say
"here" and doubled separators are dropped; names that say "up" are kept.
-/

namespace TwoPass

structure Path where
  root : String
  parts : List String
  deriving DecidableEq, Repr

namespace Path

/-- The pieces of a text between separators, where `piece` holds the characters read of the current
one, last first. -/
def piecesFrom (piece : List Char) : List Char → List (List Char)
  | [] => [piece.reverse]
  | c :: rest =>
    if c == '/' then piece.reverse :: piecesFrom [] rest else piecesFrom (c :: piece) rest

/-- The pieces of a text between separators. -/
def pieces (s : String) : List String :=
  (piecesFrom [] s.toList).map String.ofList

/-- Two separators at the start are a root of their own; any other number is the plain root. -/
def ofString (s : String) : Path where
  root :=
    match (s.toList.takeWhile (· == '/')).length with
    | 0 => ""
    | 2 => "//"
    | _ => "/"
  parts := (pieces s).filter fun p => p != "" && p != "."

/-- The path as a text; a path that goes nowhere is a dot. -/
def text (p : Path) : String :=
  if p.root = "" && p.parts.isEmpty then "." else p.root ++ "/".intercalate p.parts

/-- Whether a text holds a NUL, which no path can. -/
def holdsNul (text : String) : Bool :=
  text.toList.contains (Char.ofNat 0)

/-- A name with what follows its last dot replaced by `suffix`, the dot included. A dot at either
end of the name does not count. -/
def changeSuffix (suffix name : String) : String :=
  let reversed := name.toList.reverse
  match reversed.dropWhile (· != '.') with
  | _ :: stem =>
    if stem.isEmpty || reversed.head? == some '.' then name ++ suffix
    else String.ofList stem.reverse ++ suffix
  | [] => name ++ suffix

/-- The path with the suffix of its last name changed. -/
def withSuffix (p : Path) (suffix : String) : Path :=
  { p with parts := p.parts.dropLast ++ (p.parts.getLast?.map (changeSuffix suffix)).toList }

end Path

end TwoPass
