import Smpl.Snapshot
import Smpl.TimeStamp
import Std.Time.DateTime.Timestamp

/-!
# The program

Reads the files that the command looks at into a file tree, lets the command line say what is to be
done, and does it.
-/

namespace Smpl.Main

open CommandLine

/-- Reads a file or a directory with all that is in it. -/
partial def readTree (path : String) : IO FileTree := do
  let place := (← IO.currentDir) / path
  if ← place.isDir then
    let mut entries : Table FileTree := []
    for entry in ← place.readDir do
      entries := entries.set entry.fileName (← readTree (path ++ "/" ++ entry.fileName))
    pure (.directory entries)
  else pure (.file (← IO.FS.readBinFile place))

/-- Adds what an absolute path leads to, or the last thing on the way to it that exists. -/
def addPath (files : FileTree) (path : String) : IO FileTree := do
  let mut files := files
  let mut names : List String := []
  for name in FileTree.cleanNames path do
    let parent := "/" ++ "/".intercalate names
    let place := (← IO.currentDir) / parent
    if !(← place.isDir) then
      if ← place.pathExists then files := FileTree.graft (← readTree parent) files names
      return files
    if (files.get parent).toOption.isNone then files := FileTree.graft .bare files names
    names := names ++ [name]
  if ← ((← IO.currentDir) / path).pathExists then
    files := FileTree.graft (← readTree path) files names
  return files

/-- Adds files until the tree covers all that the command looks at. -/
partial def snapshot (env : Environment) (arguments seen : List String) : IO Environment := do
  match (wanted env arguments).filter fun path => !seen.contains path with
  | [] => pure env
  | path :: _ =>
    let files ← addPath env.files path
    snapshot { env with files := files } arguments (path :: seen)

/-- Carries out a change. -/
def apply (change : FileTree.Change) : IO Unit := do
  match change with
  | .makeDirectory names => IO.FS.createDirAll ("/" ++ "/".intercalate names)
  | .writeFile names contents => IO.FS.writeBinFile ("/" ++ "/".intercalate names) contents

/-- Reads what is left of the input. -/
partial def readInput (stream : IO.FS.Stream) (sofar : String) : IO String := do
  let line ← stream.getLine
  if line.isEmpty then pure sofar else readInput stream (sofar ++ line)

/-- Carries out a call of the command. -/
def execute (arguments : List String) : IO UInt32 := do
  let stdin ← if readsInput arguments then readInput (← IO.getStdin) "" else pure ""
  let moment ← Std.Time.Timestamp.now
  let start : Environment :=
    { files := .bare
      cwd := (← IO.currentDir).toString
      smplHome := (← IO.getEnv "SMPL_HOME").getD ""
      userHome := (← IO.getEnv "HOME").getD ""
      stdin := stdin
      now := TimeStamp.ofSeconds moment.toSecondsSinceUnixEpoch.toInt.toNat }
  let env ← snapshot start arguments []
  let outcome := run env arguments
  for line in outcome.log do
    IO.eprintln line.render
  IO.print outcome.stdout
  IO.eprint outcome.stderr
  for change in FileTree.changes [] (some env.files) outcome.files do
    apply change
  pure outcome.code.toUInt32

end Smpl.Main

/-- The program. -/
def main (arguments : List String) : IO UInt32 := Smpl.Main.execute arguments
