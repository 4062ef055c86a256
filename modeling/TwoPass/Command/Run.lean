import TwoPass.Command.Arguments
import TwoPass.Command.Help
import TwoPass.Command.Outcome

/-!
# The command

The command assembles its input file and delivers what was asked for: the words, printed or in an
object file, then the listing, then the symbol file. It never writes over its input.
-/

namespace TwoPass.Command

/-- What the command is asked to do. -/
structure Request where
  input : Path
  output : Option Path := none
  listing : Option Path := none
  symbols : Option Path := none
  print : Bool := false
  verbose : Bool := false
  strictLabels : Option Bool := none
  allowRebinding : Option Bool := none
  deriving DecidableEq, Repr

/-- Why arguments make no request: they are wrong, or a path among them is none. -/
inductive Refusal where
  | usage (e : UsageError)
  | nul (e : EmbeddedNul)
  deriving DecidableEq, Repr

namespace Arguments

/-- The path given for a target; the last one counts. -/
def path? (a : Arguments) (t : Target) : Option String :=
  (a.given.filterMap fun
    | .target u path => if u = t then some path else none
    | .switch _ => none).getLast?

/-- The targets given, in the order of their first mention. -/
def targets (a : Arguments) : List Target :=
  (a.given.filterMap fun
    | .target t _ => some t
    | .switch _ => none).eraseDups

/-- The switches given. -/
def switches (a : Arguments) : List Switch :=
  a.given.filterMap fun
    | .target _ _ => none
    | .switch s => some s

/-- The refusal of a target that is a directory. -/
def refusal? (tree : FileTree) (t : Target) (path : String) : Option Refusal :=
  match tree.examine path with
  | .error e => some (.nul e)
  | .ok (some .directory) => some (.usage (.targetIsDirectory t path))
  | .ok _ => none

/-- The refusal of the first target that is refused, if there is one. -/
def targetRefusal? (tree : FileTree) (a : Arguments) : Option Refusal :=
  a.targets.findSome? fun t => (a.path? t).bind (refusal? tree t)

/-- The input file, which must be there and be the only operand. -/
def input (tree : FileTree) (a : Arguments) : Except Refusal Path :=
  match a.operands with
  | [] => .error (.usage .inputMissing)
  | path :: extra =>
    match tree.examine path with
    | .error e => .error (.nul e)
    | .ok none => .error (.usage (.inputAbsent path))
    | .ok (some .directory) => .error (.usage (.inputIsDirectory path))
    | .ok (some .file) =>
      if extra.isEmpty then .ok (Path.ofString path) else .error (.usage (.extraArguments extra))

/-- The request that the arguments make. -/
def request (tree : FileTree) (a : Arguments) : Except Refusal Request :=
  match a.targetRefusal? tree with
  | some e => .error e
  | none =>
    match a.input tree with
    | .error e => .error e
    | .ok input =>
      let switches := a.switches
      .ok {
        input
        output := (a.path? .output).map Path.ofString
        listing := (a.path? .listing).map Path.ofString
        symbols := (a.path? .symbols).map Path.ofString
        print := switches.contains .print
        verbose := switches.contains .verbose
        strictLabels := (switches.filterMap fun
          | .strictLabels value => some value
          | _ => none).getLast?
        allowRebinding := (switches.filterMap fun
          | .allowRebinding value => some value
          | _ => none).getLast? }

/-- The text about itself that the command is asked for first, if it is. -/
def information? (a : Arguments) : Option String :=
  a.switches.findSome? fun
    | .version => some versionText
    | .help => some helpText
    | _ => none

end Arguments

/-- Something that the command delivers. -/
inductive Delivery where
  | words
  | object (path : Path)
  | listing (path : Path)
  | symbols (path : Path)
  deriving DecidableEq, Repr

namespace Request

/-- The object file, which is named for the input unless it was given. -/
def objectPath (r : Request) : Path :=
  r.output.getD (r.input.withSuffix ".obj")

/-- What is asked for, in the order of delivery. -/
def deliveries (r : Request) : List Delivery :=
  [if r.print then .words else .object r.objectPath] ++
    (r.listing.map .listing).toList ++ (r.symbols.map .symbols).toList

/-- The files to be written: the listing, the symbol file, and the object file unless the words are
printed. -/
def targetPaths (r : Request) : List Path :=
  r.listing.toList ++ r.symbols.toList ++ if r.print then [] else [r.objectPath]

/-- The first target that is the input file. -/
def overwriting? (tree : FileTree) (r : Request) : Option Path :=
  r.targetPaths.find? fun p => tree.resolve p == tree.resolve r.input

/-- The settings of the environment, changed by the options. -/
def settings (r : Request) (environment : String → Option String) : Settings :=
  let s := Settings.ofEnvironment environment
  { s with
    strictLabels := r.strictLabels.getD s.strictLabels
    allowRebinding := r.allowRebinding.getD s.allowRebinding }

end Request

/-- A line that only a verbose command prints. -/
def tellIf (verbose : Bool) (line : String) : List Output :=
  if verbose then [tell line] else []

/-- What a delivery did: the tree after it, what it printed, and what went wrong. -/
structure Delivered where
  tree : FileTree
  outputs : List Output
  trouble : Option Trouble := none

/-- The outcome of writing a file, announced in the words that follow "Wrote". -/
def Delivered.ofWriting (verbose : Bool) (announced : String) (written : FileTree × Reply Unit) :
    Delivered :=
  let (tree, reply) := written
  match reply.result with
  | .error f => ⟨tree, log verbose reply.records, some (.ofFailure f)⟩
  | .ok () => ⟨tree, log verbose reply.records ++ tellIf verbose ("Wrote " ++ announced), none⟩

/-- Delivers one thing from the session's result. -/
def deliver (session : Session) (a : Assembly) (tree : FileTree) : Delivery → Delivered
  | .words => ⟨tree, a.cells.map fun c => tell (Assembly.printedWord c), none⟩
  | .object path =>
    .ofWriting session.verbose (Numeral.decimal a.cells.length ++ " words to " ++ path.text)
      (session.writeObject tree path.text)
  | .listing path =>
    .ofWriting session.verbose ("listing to " ++ path.text) (session.writeListing tree path.text)
  | .symbols path =>
    .ofWriting session.verbose ("symbols to " ++ path.text) (session.writeSymbols tree path.text)

/-- Delivers one thing after the other, until something goes wrong. -/
def deliverAll (session : Session) (a : Assembly) (tree : FileTree) : List Delivery → Delivered
  | [] => ⟨tree, [], none⟩
  | d :: rest =>
    let first := deliver session a tree d
    match first.trouble with
    | some _ => first
    | none =>
      let others := deliverAll session a first.tree rest
      { others with outputs := first.outputs ++ others.outputs }

/-- The outcome of trouble after some output. -/
def Outcome.ofTrouble (verbose : Bool) (tree : FileTree) (outputs : List Output) (t : Trouble) :
    Outcome :=
  ⟨t.exitCode, outputs ++ t.report verbose "Assembly", tree⟩

/-- Does what is asked. -/
def Request.perform (environment : String → Option String) (tree : FileTree) (r : Request) :
    Outcome :=
  match r.overwriting? tree with
  | some path =>
    .ofTrouble r.verbose tree [] (.parameter (path.text ++ " would overwrite the input file"))
  | none =>
    let session : Session := { settings := r.settings environment, verbose := r.verbose }
    let (session, reply) := session.assembleFile tree r.input
    let outputs :=
      tellIf r.verbose ("Assembling " ++ r.input.text ++ "...") ++ log r.verbose reply.records
    match reply.result with
    | .error f => .ofTrouble r.verbose tree outputs (.ofFailure f)
    | .ok a =>
      let outputs := outputs ++ a.warnings.map fun w => complain w.message
      let delivered := deliverAll session a tree r.deliveries
      let outputs := outputs ++ delivered.outputs
      match delivered.trouble with
      | some t => .ofTrouble r.verbose delivered.tree outputs t
      | none =>
        let summary :=
          tellIf r.verbose ("Assembly complete: " ++ Numeral.decimal a.cells.length ++ " words") ++
            tellIf r.verbose ("Defined " ++ Numeral.decimal a.labels.size ++ " symbols")
        ⟨.success, outputs ++ summary, delivered.tree⟩

/-- How wrong arguments are reported. -/
def UsageError.report (e : UsageError) : List Output :=
  (if e.remindsOfUsage then [complain reminderText] else []) ++ [complain ("Error: " ++ e.message)]

/-- The outcome of the command with the given environment variables, file tree and arguments. It
breaks off without one at a path that is none. -/
def run (environment : String → Option String) (tree : FileTree) (args : List String) :
    Except EmbeddedNul Outcome :=
  match Arguments.parse args with
  | .error e => .ok ⟨.unusable, e.report, tree⟩
  | .ok a =>
    match a.information? with
    | some text => .ok ⟨.success, [tell text], tree⟩
    | none =>
      match a.request tree with
      | .error (.nul e) => .error e
      | .error (.usage e) => .ok ⟨.unusable, e.report, tree⟩
      | .ok r => .ok (r.perform environment tree)

end TwoPass.Command
