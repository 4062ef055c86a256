/-!
# Lines of a text

A text is cut at its line breaks. A carriage return followed by a line feed is one break, and a
break at the very end opens no further line.
-/

namespace TwoPass.Text

/-- Whether a character ends a line. -/
def isBreak (c : Char) : Bool :=
  let n := c.toNat
  (0xA ≤ n && n ≤ 0xD) || (0x1C ≤ n && n ≤ 0x1E) || n == 0x85 || n == 0x2028 || n == 0x2029

/-- The lines of a text, where `line` holds the characters read of the current line, last first. -/
def linesFrom (line : List Char) : List Char → List (List Char)
  | [] => if line.isEmpty then [] else [line.reverse]
  | '\r' :: '\n' :: rest => line.reverse :: linesFrom [] rest
  | c :: rest => if isBreak c then line.reverse :: linesFrom [] rest else linesFrom (c :: line) rest

/-- The lines of a text, without their breaks. -/
def lines (text : String) : List String :=
  (linesFrom [] text.toList).map String.ofList

/-- Characters with each carriage return, alone or before a line feed, turned into one line feed,
put after those of `done`, which are last first. -/
def unifyBreaksFrom (done : List Char) : List Char → List Char
  | [] => done.reverse
  | '\r' :: '\n' :: rest => unifyBreaksFrom ('\n' :: done) rest
  | c :: rest => unifyBreaksFrom ((if c == '\r' then '\n' else c) :: done) rest

/-- A text as it is read from a file: every carriage return, alone or before a line feed, becomes
one line feed. -/
def unifyBreaks (text : String) : String :=
  String.ofList (unifyBreaksFrom [] text.toList)

end TwoPass.Text
