import Templating.Text.Search

/-!
# Path names

A path name is a text of parts with slashes between them. Empty parts and single dots mean
nothing and are dropped; two dots mean the directory above. A name that begins with a slash leads
from the root of the file system, any other from the working directory. A name with exactly two
slashes at its beginning keeps both when it is shown.

A location is a place in the file system: the parts that lead to it from the root, without dots.

## Main definitions

* `PathName.ofText`, `PathName.text`: reads and shows a name.
* `PathName.ofLocation`: the name of a location.
* `PathName.locate`: the location that a name leads to, given the working directory.
* `Location.text`: shows a location.
-/

namespace Templating

open Templating.Text

/-- A place in a file system, given by the parts that lead to it from the root. Unlike a `PathName`
it has no dots and does not depend on a directory. -/
abbrev Location := List String

/-- The location as a path name. -/
def Location.text (location : Location) : String :=
  "/" ++ join "/" location

/-- The location that parts lead to from `start`, where two dots lead one directory up, and at the
root nowhere. -/
def Location.follow (start : Location) (parts : List String) : Location :=
  parts.foldl (fun at' part => if part = ".." then at'.dropLast else at' ++ [part]) start

/-- A path name as it was given. Where it leads depends on the working directory
(`PathName.locate`). -/
structure PathName where
  /-- How many slashes it begins with: none, one or two. -/
  slashes : Nat
  parts : List String
  deriving DecidableEq

namespace PathName

/-- Reads a path name. Empty parts and single dots are left out; two dots stay, since what stands
before them may be missing. -/
def ofText (s : String) : PathName :=
  let cs := s.toList
  let leading := (cs.takeWhile (· = '/')).length
  let parts := ((splitOn '/' cs).map String.ofList).filter fun part => part != "" && part != "."
  ⟨if leading = 0 then 0 else if leading = 2 then 2 else 1, parts⟩

/-- The name that leads from the root to a location. -/
def ofLocation (location : Location) : PathName :=
  ⟨1, location⟩

/-- Shows a path name, with as many slashes in front as it has; a name without parts is shown as a
dot. -/
def text (p : PathName) : String :=
  if p.slashes = 0 ∧ p.parts = [] then "."
  else String.ofList (List.replicate p.slashes '/') ++ join "/" p.parts

/-- Whether the name leads from the root. -/
def isAbsolute (p : PathName) : Bool :=
  p.slashes != 0

/-- The location from which the parts of the name are followed: the root if the name leads from
there (`isAbsolute`), and the working directory if not. -/
def start (workingDirectory : Location) (p : PathName) : Location :=
  if p.isAbsolute then [] else workingDirectory

/-- The location that the name leads to, by `Location.follow` from where it starts. -/
def locate (workingDirectory : Location) (p : PathName) : Location :=
  (p.start workingDirectory).follow p.parts

/-- The name of the directory that holds what the name leads to. -/
def parent (p : PathName) : PathName :=
  { p with parts := p.parts.dropLast }

/-- The last part of the name; empty if there is none. -/
def lastPart (p : PathName) : String :=
  p.parts.getLast?.getD ""

/-- The last part of the name without its ending: what comes before the last dot, if there is
something before it and after it. -/
def stem (p : PathName) : String :=
  let reversed := p.lastPart.toList.reverse
  let ending := reversed.takeWhile (· ≠ '.')
  match reversed.dropWhile (· ≠ '.') with
  | _ :: front =>
    if ending.isEmpty || front.isEmpty then p.lastPart else String.ofList front.reverse
  | [] => p.lastPart

/-- Whether a part of the name holds a null character, which no file system takes. -/
def hasNull (p : PathName) : Bool :=
  p.parts.any fun part => part.toList.contains '\x00'

/-- Whether the name begins with a home directory, written as a tilde. -/
def namesHome (p : PathName) : Bool :=
  !p.isAbsolute && (p.parts.head?.any fun part => part.toList.head? = some '~')

end PathName

end Templating
