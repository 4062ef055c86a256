import TwoPass.Command.Run

/-!
# The executable

Looks up the files that the arguments name, runs the command on them, prints what it printed and
writes back the files that it changed.
-/

namespace TwoPass

/-- What the file system holds at a place. A path that can be opened and not read is a directory. -/
def probe (place : Place) : IO (Option (Option ByteArray)) := do
  try
    return some (some (← IO.FS.readBinFile ("/" ++ "/".intercalate place)))
  catch
    | .noFileOrDirectory .. => return none
    | _ => return some none

/-- The places on the way to a place. -/
def waypoints (place : Place) : List Place :=
  (List.range (place.length + 1)).map place.take

/-- The places that a path can pass through. -/
def reachable (start : Place) (names : List String) : List Place :=
  waypoints start ++ names.foldl (fun ps name => FileTree.step (ps.headD start) name :: ps) []

/-- The part of the file system that some paths can reach. -/
def snapshot (current : Place) (paths : List String) : IO FileTree := do
  let start (path : String) : Place := if (Path.ofString path).root = "" then current else []
  let places := (paths.flatMap fun p => reachable (start p) (Path.ofString p).parts).eraseDups
  let mut tree : FileTree := ⟨current, [], []⟩
  for place in places do
    match ← probe place with
    | none => pure ()
    | some none => tree := { tree with directories := place :: tree.directories }
    | some (some bytes) => tree := tree.put place bytes
  return tree

/-- Every path that the arguments can name: operands, targets and the default object file. -/
def namedPaths (args : List String) : List String :=
  match Command.Arguments.parse args with
  | .error _ => []
  | .ok a =>
    a.operands ++ a.operands.map (fun p => ((Path.ofString p).withSuffix ".obj").text) ++
      a.targets.filterMap a.path?

end TwoPass

open TwoPass in
def main (args : List String) : IO UInt32 := do
  let current := (Path.ofString (toString (← IO.currentDir))).parts
  let before ← snapshot current (namedPaths args)
  let names := [Settings.strictLabelsVariable, Settings.allowRebindingVariable,
    Settings.commentCharsVariable]
  let values ← names.mapM fun name => return (name, ← IO.getEnv name)
  match Command.run (fun name => (values.lookup name).join) before args with
  | .error e =>
    IO.eprintln e.message
    return 1
  | .ok outcome =>
    for output in outcome.outputs do
      match output with
      | .out text => IO.print text
      | .err text => IO.eprint text
    for (place, bytes) in outcome.tree.files do
      if (before.file? place).map (·.data) != some bytes.data then
        IO.FS.writeBinFile ("/" ++ "/".intercalate place) bytes
    return outcome.exitCode.number.toUInt32
