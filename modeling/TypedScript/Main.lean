import TypedScript.CommandLine.Run
import TypedScript.Literal.Reading
import TypedScript.Yaml.Document

set_option autoImplicit false

/-!
The program. What stands at the paths that the arguments name is read into a
tree, the command is carried out on that tree, and what it has made is written
back. No interpreter is started from here: a run ends as if none were installed.
-/

namespace TypedScript.CommandLine

def Command.paths : Command → List Path
  | .run source | .check source => [source]
  | .compile source output => source :: output.toList

/-- The paths that a command line may need; one that cannot be read needs none. -/
def neededPaths (settings : Path) (arguments : List Text) : List Path :=
  match Invocation.read (some settings) arguments with
  | .ok invocation => settings :: invocation.settings.toList ++ invocation.command.paths
  | .error _ => []

/-- Settings are YAML, and stand in a directory beside that of the program. -/
def installation : IO Installation := do
  let program := Path.ofText (← IO.appDir).toString.toList
  return ⟨Yaml.reader, Literal.reader, program.parent.join "configs/dscript.yaml".toList⟩

/-- The places that are passed on the way along a path, the last one included. -/
def passed (tree : FileTree) (path : Path) : List Location :=
  (List.range (path.parts.length + 1)).map fun n =>
    tree.resolve { path with parts := path.parts.take n }

def placeText (location : Location) : String :=
  "/" ++ String.ofList (Text.join ['/'] location)

/-- A note as one line. -/
def noteLine (e : Event) : String :=
  e.severity.name ++ " | " ++ e.origin ++ " | " ++ e.message

def readEntry (location : Location) : IO (Option Entry) := do
  let place := (← IO.currentDir) / placeText location
  if ← place.isDir then
    return some .directory
  else if ← place.pathExists then
    return some (.file (← IO.FS.readBinFile place).toList)
  else return none

/-- Adds what stands at a location and at those above it. -/
def survey (tree : FileTree) (location : Location) : IO FileTree := do
  let mut tree := tree
  for depth in List.range location.length do
    let here := location.take (depth + 1)
    if let some entry ← readEntry here then tree := tree.put here entry
  return tree

/-- Writes the entries that were added or changed, in the order in which they were made. -/
def writeBack (before after : FileTree) : IO Unit := do
  for (location, entry) in after.entries.reverse do
    if before.entry? location ≠ some entry then
      match entry with
      | .directory => IO.FS.createDirAll (placeText location)
      | .file content => IO.FS.writeBinFile (placeText location) ⟨content.toArray⟩

def openSession (paths : List Path) : IO Session := do
  let home := (Path.ofText (← IO.currentDir).toString.toList).parts
  let scratch := Path.ofText ((← IO.getEnv "TMPDIR").getD "/tmp").toList
  let mut files : FileTree := ⟨[], home⟩
  for path in scratch :: paths do
    for location in passed files path do
      files ← survey files location
  return {
    files := files
    clock := .real ((← IO.monoMsNow).toFloat / 1000.0)
    scratch := scratch
    children := [⟨.keeps, .notFound⟩]
    level := .warning
    events := []
    launches := []
    out := ""
    err := "" }

end TypedScript.CommandLine

open TypedScript CommandLine in
def main (arguments : List String) : IO UInt32 := do
  let arguments := arguments.map String.toList
  let installed ← installation
  let before ← openSession (neededPaths installed.settings arguments)
  let (status, after) := CommandLine.run installed arguments before
  writeBack before.files after.files
  for e in after.events do
    IO.eprintln (noteLine e)
  IO.eprint after.err
  IO.print after.out
  return (status % 256).toNat.toUInt32
