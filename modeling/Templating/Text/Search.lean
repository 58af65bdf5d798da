/-!
# Searching and splitting text

Cutting a list of characters at a separator, counting occurrences of a pattern, and joining
texts. Occurrences are counted from left to right without overlap.
-/

namespace Templating.Text

/-- The parts of a text between the occurrences of a separator; one more part than there are
separators, so the empty text has one empty part. -/
def splitOn (separator : Char) : List Char → List (List Char)
  | [] => [[]]
  | c :: cs =>
    if c = separator then [] :: splitOn separator cs
    else
      match splitOn separator cs with
      | [] => [[c]]
      | part :: parts => (c :: part) :: parts

/-- The text after `pattern`, if the text begins with it. This is what `startsWith` and `occursIn`
are made of. -/
def dropLeading : List Char → List Char → Option (List Char)
  | [], cs => some cs
  | _ :: _, [] => none
  | p :: ps, c :: cs => if p = c then dropLeading ps cs else none

/-- Whether the text begins with `pattern`. -/
def startsWith (pattern cs : List Char) : Bool :=
  (dropLeading pattern cs).isSome

/-- Whether `pattern` occurs somewhere in the text. -/
def occursIn (pattern : List Char) : List Char → Bool
  | [] => pattern.isEmpty
  | c :: cs => startsWith pattern (c :: cs) || occursIn pattern cs

/-- How often the pair of characters `a b` occurs in the text, from left to right and without
overlap. -/
def countPair (a b : Char) : List Char → Nat
  | x :: y :: cs =>
    if x = a && y = b then countPair a b cs + 1 else countPair a b (y :: cs)
  | _ => 0

/-- The texts one after the other, with `separator` between neighbours. -/
def join (separator : String) (parts : List String) : String :=
  String.intercalate separator parts

/-- All texts one after the other: `join` with nothing between them. -/
def concat (parts : List String) : String :=
  String.join parts

end Templating.Text
