/-!
# Similar names

How alike two names are is measured by the blocks they have in common: the longest block first, then
the longest ones to the left and to the right of it, and so on. The score is twice the total size of
the blocks over the sum of the two lengths.

In a long name, characters that occur often do not start a block; they only extend one.
-/

namespace TwoPass.Similarity

/-- A block that two texts share: where it starts in each, and its size. -/
structure Block where
  left : Nat
  right : Nat
  size : Nat
  deriving DecidableEq, Repr

/-- The sizes of the blocks that end with `c` on the left and with each character of `b` on the
right, from the sizes of those that end one character before on the left. -/
def nextRow (popular : List Char) (c : Char) (b : List Char) (row : List Nat) : List Nat :=
  List.zipWith (fun d size => if c == d && !popular.contains d then size + 1 else 0) b (0 :: row)

/-- The larger of `best` and the blocks of a row that end at `i` on the left. The first of equals
stays. -/
def better (i : Nat) (best : Block) (row : List Nat) : Block :=
  row.zipIdx.foldl
    (fun best (size, j) =>
      if best.size < size then ⟨i + 1 - size, j + 1 - size, size⟩ else best) best

/-- The longest block among `b` and the characters of `a`, which stand at `i`. -/
def longestFrom (popular : List Char) (b : List Char) (i : Nat) (best : Block) (row : List Nat) :
    List Char → Block
  | [] => best
  | c :: a =>
    let row := nextRow popular c b row
    longestFrom popular b (i + 1) (better i best row) row a

/-- How many characters two texts have in common from their start. -/
def commonStart : List Char → List Char → Nat
  | c :: a, d :: b => if c == d then commonStart a b + 1 else 0
  | _, _ => 0

/-- The block widened to both sides over equal characters. -/
def widen (a b : List Char) (k : Block) : Block :=
  let before := commonStart (a.take k.left).reverse (b.take k.right).reverse
  let after := commonStart (a.drop (k.left + k.size)) (b.drop (k.right + k.size))
  ⟨k.left - before, k.right - before, k.size + before + after⟩

/-- The longest block of two texts: of equals the one that starts earliest in `a`, then in `b`. -/
def longest (popular a b : List Char) : Block :=
  widen a b (longestFrom popular b 0 ⟨0, 0, 0⟩ (b.map fun _ => 0) a)

/-- The total size of the common blocks. Each one uses up a character of `a` at least, so that
`depth` need not be more than the length of `a`. -/
def matched (popular : List Char) : (depth : Nat) → List Char → List Char → Nat
  | 0, _, _ => 0
  | depth + 1, a, b =>
    let k := longest popular a b
    if k.size = 0 then 0
    else
      k.size + matched popular depth (a.take k.left) (b.take k.right) +
        matched popular depth (a.drop (k.left + k.size)) (b.drop (k.right + k.size))

/-- The characters that do not start a block: in a text of at least two hundred characters, those
that make up more than about a hundredth of it. -/
def popularIn (b : List Char) : List Char :=
  if b.length < 200 then [] else b.eraseDups.filter fun c => b.length / 100 + 1 < b.count c

/-- A similarity between 0 and 1. -/
structure Score where
  numerator : Nat
  denominator : Nat
  deriving DecidableEq, Repr

/-- The order of scores as fractions. -/
def Score.le (x y : Score) : Bool :=
  x.numerator * y.denominator ≤ y.numerator * x.denominator

/-- How alike a candidate and a name are; two empty texts are the same. -/
def score (candidate name : String) : Score :=
  let a := candidate.toList
  let b := name.toList
  if a.length + b.length = 0 then ⟨1, 1⟩
  else ⟨2 * matched (popularIn b) a.length a b, a.length + b.length⟩

/-- Names count as similar from three fifths on. -/
def threshold : Score := ⟨3, 5⟩

/-- Whether the scored name `x` stands before `y`: the higher score, then the later name. -/
def ranksBefore (x y : Score × String) : Bool :=
  if x.1.le y.1 then y.1.le x.1 && y.2 ≤ x.2 else true

/-- The candidates similar to a name, best first, at most `limit` of them. -/
def closest (limit : Nat) (name : String) (candidates : List String) : List String :=
  let scored := (candidates.map fun c => (score c name, c)).filter fun x => threshold.le x.1
  ((scored.mergeSort ranksBefore).take limit).map (·.2)

end TwoPass.Similarity
