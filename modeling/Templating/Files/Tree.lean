import Templating.Fault
import Templating.Files.PathName

/-!
# File trees

A file tree is what a file system without links holds: directories, and files with text, each at
its location. The root is always a directory. Operations follow the parts of a name one by one:
every part but the last has to lead to a directory, two dots lead one directory up, and no part
may be longer than 255 bytes.

## Main definitions

* `FileTree`: the trees.
* `FileTree.find`: what a name leads to.
* `FileTree.exists?`: whether it leads to something.
* `makeDirectories`, `writeText`: the operations that change a tree.
-/

namespace Templating

/-- What stands at a location. -/
inductive Node where
  | directory
  | file (text : String)
  deriving DecidableEq

/-- A tree of files and directories, each given with its location. The root is a directory without
being listed. -/
structure FileTree where
  nodes : List (Location × Node)
  deriving DecidableEq

/-- Operations that may fail and that change a file tree whether they fail or not: what was written
before a fault stays. -/
abbrev FilesM := ExceptT Fault (StateM FileTree)

namespace FileTree

/-- What stands at a location; the first of the `nodes` counts. -/
def node? (t : FileTree) (location : Location) : Option Node :=
  if location = [] then some .directory else t.nodes.lookup location

/-- The tree with something put at a location, in the place of what stands there or behind all
others. -/
def put (t : FileTree) (location : Location) (node : Node) : FileTree :=
  ⟨go t.nodes⟩
where
  /-- Puts the node in the place of the one at the location, or at the end. -/
  go : List (Location × Node) → List (Location × Node)
    | [] => [(location, node)]
    | entry :: rest => if entry.1 = location then (location, node) :: rest else entry :: go rest

/-- Whether a part is too long for a name, counted in bytes. -/
def isOverlong (part : String) : Bool :=
  decide (255 < part.utf8ByteSize)

/-- What parts lead to from a directory, and its location. It looks at every part in turn, so a
missing directory before two dots is a fault. -/
def find (t : FileTree) : (start : Location) → (parts : List String) →
    Except SystemFault (Location × Node)
  | at', [] => .ok (at', .directory)
  | at', part :: rest =>
    if part = ".." then t.find at'.dropLast rest
    else if isOverlong part then .error .nameTooLong
    else
      match t.node? (at' ++ [part]) with
      | none => .error .notFound
      | some .directory => t.find (at' ++ [part]) rest
      | some (.file text) =>
        if rest.isEmpty then .ok (at' ++ [part], .file text) else .error .notDirectory

/-- Whether parts lead to something from a directory. A file in the way counts as not leading there;
other faults remain faults. -/
def exists? (t : FileTree) (start : Location) (parts : List String) : Except SystemFault Bool :=
  match t.find start parts with
  | .ok _ => .ok true
  | .error .notFound => .ok false
  | .error .notDirectory => .ok false
  | .error fault => .error fault

/-- The tree with every missing directory on the way along parts, and the fault if a file is in the
way; the directories made before it remain. -/
def withDirectories : (start : Location) → (parts : List String) → FileTree →
    Except SystemFault Unit × FileTree
  | _, [], t => (.ok (), t)
  | at', part :: rest, t =>
    if part = ".." then withDirectories at'.dropLast rest t
    else if isOverlong part then (.error .nameTooLong, t)
    else
      match t.node? (at' ++ [part]) with
      | some .directory => withDirectories (at' ++ [part]) rest t
      | some (.file _) =>
        (.error (if rest.isEmpty then .alreadyThere (Location.text (at' ++ [part]))
          else .notDirectory), t)
      | none => withDirectories (at' ++ [part]) rest (t.put (at' ++ [part]) .directory)

/-- The tree with a text written where parts lead to, which may not be a directory. -/
def withText (text : String) : (start : Location) → (parts : List String) → FileTree →
    Except SystemFault FileTree
  | _, [], _ => .error .isDirectory
  | at', part :: rest, t =>
    if part = ".." then withText text at'.dropLast rest t
    else if isOverlong part then .error .nameTooLong
    else
      match t.node? (at' ++ [part]), rest with
      | some .directory, rest => withText text (at' ++ [part]) rest t
      | some (.file _), [] => .ok (t.put (at' ++ [part]) (.file text))
      | some (.file _), _ :: _ => .error .notDirectory
      | none, [] => .ok (t.put (at' ++ [part]) (.file text))
      | none, _ :: _ => .error .notFound

end FileTree

/-! ### Operations -/

/-- Makes the missing directories on the way along parts (`FileTree.withDirectories`). -/
def makeDirectories (start : Location) (parts : List String) : FilesM Unit :=
  fun t =>
    match FileTree.withDirectories start parts t with
    | (.ok (), t) => (.ok (), t)
    | (.error fault, t) => (.error (.system fault), t)

/-- Writes a text where parts lead to (`FileTree.withText`). Directories are not made. -/
def writeText (start : Location) (parts : List String) (text : String) : FilesM Unit :=
  fun t =>
    match FileTree.withText text start parts t with
    | .ok t => (.ok (), t)
    | .error fault => (.error (.system fault), t)

end Templating
