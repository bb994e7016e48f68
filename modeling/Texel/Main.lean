import Texel.Cli.Run

/-!
# The program

Brings the files that the arguments name into a store, runs the command line on it, and carries the
outcome back: printed text, the written program source, the exit code. Image files are not decoded
here, so a document with images is reported as one whose images cannot be opened.
-/

namespace Texel.Cli.Host

def readText? (path : String) : IO (Option String) := do
  try
    return some (← IO.FS.readFile path)
  catch _ =>
    return none

/-- Only a directory has an entry for itself. -/
def isDirectory (path : String) : IO Bool := do
  try
    discard (IO.FS.Handle.mk (path ++ "/.") .read)
    return true
  catch _ =>
    return false

/-- Notes the directories above a path. -/
def addDirectories (store : Store) (path : String) : IO Store := do
  let mut result := store
  let above := (Path.parts path).dropLast
  for n in List.range above.length do
    let directory := "/".intercalate (above.take (n + 1))
    if ← isDirectory directory then
      result := { result with directories := Path.location directory :: result.directories }
  return result

/-- Notes a file that holds text. -/
def addFile (store : Store) (path : String) : IO Store := do
  let store ← addDirectories store path
  match ← readText? path with
  | some text => return { store with files := (Path.location path, .text text) :: store.files }
  | none => return store

/-- The file to which the source of the program goes. -/
def sourcePath? (o : Options) (store : Store) : Option String :=
  match ((Cli.settings o).run store).result with
  | .ok config => config.dumpSource
  | .error _ => none

end Texel.Cli.Host

open Texel Texel.Cli.Host in
def main (args : List String) : IO UInt32 := do
  let mut store : Store := {}
  let mut target : Option String := none
  if let .ok o := Options.parse args then
    for path in o.graph.toList ++ o.config.toList do
      store ← addFile store path
    target := sourcePath? o store
    for path in target.toList do
      store ← addDirectories store path
  let filter := Filter.ofText ((← IO.getEnv "RUST_LOG").getD "")
  let result := Cli.run filter args store
  IO.print result.stdout
  if let some path := target then
    if let .ok text := result.files.readText path then
      IO.FS.writeFile path text
  match result.failure with
  | none => return 0
  | some failure =>
    IO.eprintln failure.report
    return 1
