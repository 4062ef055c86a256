import TwoPass.Session
import TwoPass.Text.Escape

/-!
# Outcomes

What a command leaves behind: an exit code, what it printed in order, and the file tree. Text for
people loses its terminal escape sequences; the journal does not.
-/

namespace TwoPass.Command

inductive ExitCode where
  | success
  /-- The program cannot be assembled. -/
  | rejected
  /-- The arguments or the files they name cannot be used. -/
  | unusable
  /-- Anything else. -/
  | internal
  deriving DecidableEq, Repr

def ExitCode.number : ExitCode → Nat
  | .success => 0
  | .rejected => 1
  | .unusable => 2
  | .internal => 3

/-- A text printed to the standard output or to the standard error. -/
inductive Output where
  | out (text : String)
  | err (text : String)
  deriving DecidableEq, Repr

/-- A line for people on the standard output. -/
def tell (line : String) : Output :=
  .out (Text.plain line ++ "\n")

/-- A line for people on the standard error. -/
def complain (line : String) : Output :=
  .err (Text.plain line ++ "\n")

/-- Records of the journal, which only a verbose command prints. -/
def log (verbose : Bool) (records : List Record) : List Output :=
  if verbose then records.map fun r => .err (r.line ++ "\n") else []

/-- All that was printed to the standard output. -/
def standardOutput (outputs : List Output) : String :=
  String.join (outputs.filterMap fun
    | .out text => some text
    | .err _ => none)

/-- All that was printed to the standard error. -/
def standardError (outputs : List Output) : String :=
  String.join (outputs.filterMap fun
    | .out _ => none
    | .err text => some text)

/-- What can go wrong in a command whose arguments are well formed. -/
inductive Trouble where
  | diagnostic (d : Diagnostic)
  /-- The program is rejected for a cause worded by the caller. -/
  | rejection (text : String)
  | parameter (text : String)
  | file (e : FileError)
  | unexpected (text : String)
  deriving DecidableEq, Repr

namespace Trouble

def ofFailure : Failure → Trouble
  | .fault (.diagnostic d) => .diagnostic d
  | .fault f => .unexpected f.message
  | .file (.refused e) => .file e
  | .file (.nul e) => .unexpected e.message
  | .undecodable f => .unexpected f.message

def text : Trouble → String
  | .diagnostic d => d.message
  | .rejection text => text
  | .parameter text => text
  | .file e => e.message
  | .unexpected text => text

def exitCode : Trouble → ExitCode
  | .diagnostic _ => .rejected
  | .rejection _ => .rejected
  | .parameter _ => .unusable
  | .file e =>
    match e.kind with
    | .missing => .unusable
    | .denied => .unusable
    | .notDirectory => .internal
    | .isDirectory => .internal
    | .nameTooLong => .internal
  | .unexpected _ => .internal

/-- How trouble is reported. A rejection is headed by the activity it comes from, if that has a
name; what is unexpected comes with a trace if the command is verbose. -/
def report (t : Trouble) (verbose : Bool) (activity : String) : List Output :=
  match t.exitCode with
  | .rejected =>
    [complain ((if activity = "" then "Error: " else activity ++ " error: ") ++ t.text)]
  | .internal =>
    complain ("Internal error: " ++ t.text) :: if verbose then [complain "<traceback>"] else []
  | _ => [complain ("Error: " ++ t.text)]

end Trouble

structure Outcome where
  exitCode : ExitCode
  outputs : List Output
  tree : FileTree

end TwoPass.Command
