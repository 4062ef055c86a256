import TwoPass.Text.Blank

/-!
# Settings

Settings come from defaults, then from environment variables, then from overrides.
-/

namespace TwoPass

structure Settings where
  /-- Whether an unknown label stops the assembly; otherwise it stands for address 0. -/
  strictLabels : Bool := false
  /-- Whether a label may be defined again. -/
  allowRebinding : Bool := false
  /-- The characters that start a comment. -/
  commentChars : String := ";/"
  deriving DecidableEq, Repr

namespace Settings

/-- The truth value that a text spells in any case and between any blanks, if it does. -/
def truth? (text : String) : Option Bool :=
  let word := (Text.trim text).map Char.toLower
  if ["1", "true", "yes", "on"].contains word then some true
  else if ["0", "false", "no", "off"].contains word then some false
  else none

/-- The environment variable that makes labels strict. -/
def strictLabelsVariable : String := "MANO_ASM_STRICT_SYMBOLS"

/-- The environment variable that lets labels be defined again. -/
def allowRebindingVariable : String := "MANO_ASM_ALLOW_REDEFINITION"

/-- The environment variable that holds the comment characters. -/
def commentCharsVariable : String := "MANO_ASM_COMMENT_CHARS"

/-- The settings that environment variables give. A variable that spells no truth value is
ignored; any value sets the comment characters, an empty one too. -/
def ofEnvironment (environment : String → Option String) : Settings where
  strictLabels := ((environment strictLabelsVariable).bind truth?).getD false
  allowRebinding := ((environment allowRebindingVariable).bind truth?).getD false
  commentChars := (environment commentCharsVariable).getD ";/"

/-- A change of one setting; `other` is one of a setting that does not exist. -/
inductive Change where
  | strictLabels (value : Bool)
  | allowRebinding (value : Bool)
  | commentChars (value : String)
  | other (name : String)
  deriving DecidableEq, Repr

/-- The refusal of a setting that does not exist. -/
structure UnknownSetting where
  name : String
  deriving DecidableEq, Repr

def UnknownSetting.message (e : UnknownSetting) : String :=
  "AssemblerConfig.__init__() got an unexpected keyword argument '" ++ e.name ++ "'"

def change (s : Settings) : Change → Except UnknownSetting Settings
  | .strictLabels value => .ok { s with strictLabels := value }
  | .allowRebinding value => .ok { s with allowRebinding := value }
  | .commentChars value => .ok { s with commentChars := value }
  | .other name => .error ⟨name⟩

/-- The settings after changes in order. -/
def override (s : Settings) (changes : List Change) : Except UnknownSetting Settings :=
  changes.foldlM change s

end Settings

end TwoPass
