import Templating.Command.Run

/-!
# The program

Runs the command line on the files of the working directory and of the places that arguments
name. Those files are read into a tree, the command runs on the tree, and what differs afterwards
is written back. Links are followed down to a fixed depth.
-/

namespace Templating.Program

/-- How many directories below one another are read. -/
def maxDepth : Nat := 32

/-- The location that an absolute name of the system leads to. -/
def locationOf (name : String) : Location :=
  (PathName.ofText name).parts

/-- What stands at a location, with the names below it, as far as it can be read. -/
def nodeAt? (location : Location) : IO (Option (Node × List String)) := do
  let name := location.text
  try
    let entries ← (← IO.FS.realPath name).readDir
    return some (.directory, entries.toList.map (·.fileName))
  catch _ =>
    try
      return some (.file (← IO.FS.readFile name), [])
    catch _ => return none

/-- The nodes of the file tree from a location on. -/
def nodesFrom : Nat → Location → IO (List (Location × Node))
  | 0, _ => return []
  | depth + 1, location => do
    match ← nodeAt? location with
    | none => return []
    | some (node, names) =>
      let below ← names.mapM fun name => nodesFrom depth (location ++ [name])
      return (location, node) :: below.flatten

/-- The nodes above a location. -/
def nodesAbove (location : Location) : IO (List (Location × Node)) := do
  let places := (List.range location.length).map fun n => location.take n
  let found ← places.mapM fun place => do
    return (← nodeAt? place).map fun (node, _) => (place, node)
  return found.filterMap id

/-- The files of the working directory and of the places that arguments name, unless those lie
above the working directory. -/
def snapshot (directory : Location) (args : List String) : IO FileTree := do
  let named := args.map fun arg => (PathName.ofText arg).locate directory
  let places := directory :: named.filter fun location => !location.isPrefixOf directory
  let above ← places.mapM nodesAbove
  let nodes ← places.mapM (nodesFrom maxDepth)
  return (above ++ nodes).flatten.foldl (fun t entry => t.put entry.1 entry.2) ⟨[]⟩

/-- Writes what a tree has and another has not. -/
def writeBack (old new : FileTree) : IO Unit := do
  for (location, node) in new.nodes do
    if old.node? location ≠ some node then
      match node with
      | .directory => IO.FS.createDirAll location.text
      | .file text => IO.FS.writeFile location.text text

/-- How the program is used. -/
def usage : String :=
  "usage: templating [-h] [-v] render|variables|validate|init FILE [options]"

/-- What is shown of a fault that ends a run. -/
def shown (fault : Fault) : String :=
  if fault.message = "" then "the files or the numbers given cannot be used" else fault.message

end Templating.Program

open Templating Templating.Program in
/-- Runs the command line. -/
def main (args : List String) : IO UInt32 := do
  let directory := locationOf (← IO.currentDir).toString
  let old ← snapshot directory args
  match Command.run directory args old with
  | (.finished b, new) =>
    writeBack old new
    IO.print b.output
    IO.eprint b.log
    return b.exitCode.toUInt32
  | (.interrupted i, _) =>
    IO.println usage
    return i.exitCode.toUInt32
  | (.failed fault, new) =>
    writeBack old new
    IO.eprintln (shown fault)
    return 1
