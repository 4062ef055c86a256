import TwoPass.Text.Quoted
import TwoPass.Text.Similarity

/-!
# Command-line arguments

Options may stand before or after the input file. A long option takes its value after an equals
sign or from the next argument; short options can be joined, and the last one of them can be joined
to its value. Two dashes end the options.

The options themselves are the assembler's. How arguments are split into them and the wording of a
`UsageError` are the conventions of the library click, which the command rests on. They are taken as
they are, so that the command runs; what is proved of the command holds whatever request its
arguments are read as.
-/

namespace TwoPass.Command

/-- The files that can be asked for. -/
inductive Target where
  | output | listing | symbols
  deriving DecidableEq, Repr

/-- The options that take no value. -/
inductive Switch where
  | print
  | strictLabels (value : Bool)
  | allowRebinding (value : Bool)
  | verbose
  | version
  | help
  deriving DecidableEq, Repr

/-- What an option stands for. -/
inductive Choice where
  | target (t : Target)
  | switch (s : Switch)
  deriving DecidableEq, Repr

/-- An option as it was given. -/
inductive Given where
  | target (t : Target) (path : String)
  | switch (s : Switch)
  deriving DecidableEq, Repr

def longOptions : List (String × Choice) :=
  [("--output", .target .output), ("--listing", .target .listing), ("--symbols", .target .symbols),
   ("--print", .switch .print), ("--strict-symbols", .switch (.strictLabels true)),
   ("--lenient-symbols", .switch (.strictLabels false)),
   ("--allow-redefinition", .switch (.allowRebinding true)),
   ("--no-allow-redefinition", .switch (.allowRebinding false)),
   ("--verbose", .switch .verbose), ("--version", .switch .version), ("--help", .switch .help)]

def shortOptions : List (Char × Choice) :=
  [('o', .target .output), ('l', .target .listing), ('s', .target .symbols),
   ('p', .switch .print), ('v', .switch .verbose)]

/-- The names under which messages speak of a target. -/
def Target.names : Target → String
  | .output => "'-o' / '--output'"
  | .listing => "'-l' / '--listing'"
  | .symbols => "'-s' / '--symbols'"

/-- What can be wrong with the arguments. -/
inductive UsageError where
  | noSuchOption (name : String) (similar : List String)
  | valueMissing (name : String)
  | valueUnexpected (name : String)
  | inputMissing
  | inputAbsent (path : String)
  | inputIsDirectory (path : String)
  | targetIsDirectory (t : Target) (path : String)
  | extraArguments (args : List String)
  deriving DecidableEq, Repr

namespace UsageError

def message : UsageError → String
  | .noSuchOption name similar =>
    "No such option: " ++ name ++
      match similar with
      | [] => ""
      | [one] => " Did you mean " ++ one ++ "?"
      | several =>
        " (Possible options: " ++ ", ".intercalate (several.mergeSort fun a b => a ≤ b) ++ ")"
  | .valueMissing name => "Option " ++ Text.quoted name ++ " requires an argument."
  | .valueUnexpected name => "Option " ++ Text.quoted name ++ " does not take a value."
  | .inputMissing => "Missing argument 'INPUT_FILE'."
  | .inputAbsent path =>
    "Invalid value for 'INPUT_FILE': File " ++ Text.quoted path ++ " does not exist."
  | .inputIsDirectory path =>
    "Invalid value for 'INPUT_FILE': File " ++ Text.quoted path ++ " is a directory."
  | .targetIsDirectory t path =>
    "Invalid value for " ++ t.names ++ ": File " ++ Text.quoted path ++ " is a directory."
  | .extraArguments args =>
    "Got unexpected extra argument" ++ (if args.length = 1 then "" else "s") ++ " (" ++
      " ".intercalate args ++ ")"

/-- Whether the message comes with a reminder of the usage. -/
def remindsOfUsage : UsageError → Bool
  | .valueMissing _ => false
  | .valueUnexpected _ => false
  | _ => true

end UsageError

/-- The options in the order given, and the other arguments. -/
structure Arguments where
  given : List Given
  operands : List String
  deriving DecidableEq, Repr

/-- What one argument says: some options, the last of which may be a target that has its path in
the next argument. -/
structure Said where
  given : List Given := []
  awaiting : Option (String × Target) := none
  deriving DecidableEq, Repr

/-- A long option with the value that is joined to it, if there is one. -/
def sayLong (name : String) (value : Option String) : Choice → Except UsageError Said
  | .target t =>
    match value with
    | some path => .ok { given := [.target t path] }
    | none => .ok { awaiting := some (name, t) }
  | .switch s =>
    match value with
    | some _ => .error (.valueUnexpected name)
    | none => .ok { given := [.switch s] }

/-- Short options joined to each other, without their dash. -/
def sayShort : List Char → Except UsageError Said
  | [] => .ok {}
  | c :: rest =>
    let name := String.ofList ['-', c]
    match shortOptions.lookup c with
    | none => .error (.noSuchOption name [])
    | some (.target t) =>
      if rest.isEmpty then .ok { awaiting := some (name, t) }
      else .ok { given := [.target t (String.ofList rest)] }
    | some (.switch s) =>
      match sayShort rest with
      | .ok said => .ok { said with given := .switch s :: said.given }
      | .error e => .error e

/-- The name of a long option and the value that is joined to it. -/
def splitValue (arg : String) : String × Option String :=
  let name := arg.toList.takeWhile (· != '=')
  match arg.toList.drop name.length with
  | [] => (arg, none)
  | _ :: value => (String.ofList name, some (String.ofList value))

/-- What an argument that starts with a dash says. -/
def say (arg : String) : Except UsageError Said :=
  let (name, value) := splitValue arg
  match longOptions.lookup name with
  | some choice => sayLong name value choice
  | none =>
    match arg.toList with
    | '-' :: '-' :: _ =>
      .error (.noSuchOption name (Similarity.closest 3 name (longOptions.map (·.1))))
    | _ => sayShort (arg.toList.drop 1)

/-- Whether an argument holds options. -/
def isOption (arg : String) : Bool :=
  arg.toList.head? == some '-' && arg != "-"

/-- The options and operands of the arguments. -/
def Arguments.parse : List String → Except UsageError Arguments
  | [] => .ok ⟨[], []⟩
  | arg :: rest =>
    if arg = "--" then .ok ⟨[], rest⟩
    else if isOption arg then
      match say arg with
      | .error e => .error e
      | .ok ⟨given, none⟩ =>
        match Arguments.parse rest with
        | .error e => .error e
        | .ok a => .ok { a with given := given ++ a.given }
      | .ok ⟨given, some (name, t)⟩ =>
        match rest with
        | [] => .error (.valueMissing name)
        | path :: rest =>
          match Arguments.parse rest with
          | .error e => .error e
          | .ok a => .ok { a with given := given ++ .target t path :: a.given }
    else
      match Arguments.parse rest with
      | .error e => .error e
      | .ok a => .ok { a with operands := arg :: a.operands }

end TwoPass.Command
