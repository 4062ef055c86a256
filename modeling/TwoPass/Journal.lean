import TwoPass.Emission

/-!
# Journal

What a run notes down as it goes: a level, the part of the program that speaks, and a text. What was
noted before a failure stays.
-/

namespace TwoPass

inductive Level where
  | debug | info
  deriving DecidableEq, Repr

def Level.name : Level → String
  | .debug => "DEBUG"
  | .info => "INFO"

/-- The part of the program that a record comes from. -/
inductive Speaker where
  | reader | passes | session
  deriving DecidableEq, Repr

def Speaker.name : Speaker → String
  | .reader => "mano_asm.assembler.parser"
  | .passes => "mano_asm.assembler.codegen"
  | .session => "mano_asm.assembler.assembler"

structure Record where
  level : Level
  speaker : Speaker
  text : String
  deriving DecidableEq, Repr

namespace Record

/-- A record as a line. -/
def line (r : Record) : String :=
  r.level.name ++ " " ++ r.speaker.name ++ ": " ++ r.text

/-- The reading of statements from a file is noted when all were read. -/
def ofReading (file : Option String) : Except Diagnostic (List SourceStatement) → List Record
  | .ok statements =>
    [⟨.debug, .reader,
      "Parsed " ++ Numeral.decimal statements.length ++ " instructions from " ++ fileText file⟩]
  | .error _ => []

/-- The first pass notes every label that it binds, and its end. -/
def ofLayout (pass : Pass Layout.State Layout.Event Diagnostic) : List Record :=
  let bound := pass.events.filterMap fun e =>
    e.label.map fun label => "Defined " ++ label ++ " = " ++ Numeral.address e.address
  let ended :=
    match pass.stop with
    | some _ => []
    | none => ["Pass 1 complete: " ++ Numeral.decimal pass.state.labels.size ++ " symbols"]
  (bound ++ ended).map fun text => ⟨.debug, .passes, text⟩

/-- The second pass notes its end. -/
def ofEmission (pass : Pass Nat Emission.Event Fault) : List Record :=
  match pass.stop with
  | some _ => []
  | none =>
    [⟨.debug, .passes,
      "Pass 2 complete: " ++ Numeral.decimal (pass.events.filterMap (·.cell)).length ++
        " words, " ++ Numeral.decimal (pass.events.flatMap (·.warnings)).length ++ " warnings"⟩]

/-- What the two passes over a program note. -/
def ofPasses (settings : Settings) (statements : List SourceStatement) : List Record :=
  let layout := Layout.run settings statements
  ofLayout layout ++
    match layout.stop with
    | some _ => []
    | none => ofEmission (Emission.run settings layout.state.labels.close statements)

end Record

end TwoPass
