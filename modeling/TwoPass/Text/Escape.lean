/-!
# Terminal escape sequences

A control sequence is the escape character, an opening bracket, parameters (digits, semicolons and
question marks) and a final ASCII letter. Text meant for a screen is shown without them when the
output is not a screen. That, and which sequences count, is how the library click writes a text,
which the command rests on.
-/

namespace TwoPass.Text

/-- The escape character. -/
def escape : Char := '\x1b'

/-- Whether a character can be a parameter of a control sequence. -/
def isParameter (c : Char) : Bool :=
  c.isDigit || c == ';' || c == '?'

/-- Whether `c` carries on the unfinished control sequence `held`, which is last first. -/
def carriesOn (held : List Char) (c : Char) : Bool :=
  match held with
  | [] => false
  | [_] => c == '['
  | _ => isParameter c

/-- Whether `c` ends the unfinished control sequence `held`, which is last first. -/
def finishes (held : List Char) (c : Char) : Bool :=
  match held with
  | [] => false
  | [_] => false
  | _ => c.isAlpha

/-- Characters without control sequences. Those before them are `done`, then `held`, which may
be the beginning of a control sequence; both are last first. -/
def plainFrom (done held : List Char) : List Char → List Char
  | [] => (held ++ done).reverse
  | c :: rest =>
    if carriesOn held c then plainFrom done (c :: held) rest
    else if finishes held c then plainFrom done [] rest
    else if c == escape then plainFrom (held ++ done) [c] rest
    else plainFrom (c :: (held ++ done)) [] rest

/-- The text without its control sequences. -/
def plain (s : String) : String :=
  String.ofList (plainFrom [] [] s.toList)

end TwoPass.Text
