import Templating.Files.Tree

/-!
# Reading files

Text is read with uniform line ends: a carriage return, alone or before a line feed, is read as a
line feed.

## Main definitions

* `unifiedLineEnds`: a text with uniform line ends.
* `FileTree.textAt`: the text of the file that a name leads to.
* `readText`: the text as it is read.
-/

namespace Templating

/-- A text in which every line ends with a line feed, as files are read: a carriage return, alone or
before a line feed, becomes one. -/
def unifiedLineEnds : List Char → List Char
  | [] => []
  | '\r' :: '\n' :: cs => '\n' :: unifiedLineEnds cs
  | '\r' :: cs => '\n' :: unifiedLineEnds cs
  | c :: cs => c :: unifiedLineEnds cs

/-- The text of the file that a name leads to, as it stands there. `readText` unifies its line
ends. -/
def FileTree.textAt (t : FileTree) (directory : Location) (name : PathName) :
    Except SystemFault String :=
  if name.hasNull then .error .nullCharacter
  else
    match t.find (name.start directory) name.parts with
    | .ok (_, .file text) => .ok text
    | .ok (_, .directory) => .error .isDirectory
    | .error fault => .error fault

/-- Reads the file that a name leads to. -/
def readText (directory : Location) (name : PathName) : FilesM String :=
  fun t =>
    match t.textAt directory name with
    | .ok text => (.ok (String.ofList (unifiedLineEnds text.toList)), t)
    | .error fault => (.error (.system fault), t)

/-- Writes a text to the file that a name leads to, and makes the directories before it. They stay
if the file cannot be written then. -/
def writeNamed (directory : Location) (name : PathName) (text : String) : FilesM Unit := do
  if name.parent.hasNull then throw (.system .nullCharacter)
  makeDirectories (name.start directory) name.parent.parts
  if name.hasNull then throw (.system .nullCharacter)
  writeText (name.start directory) name.parts text

end Templating
