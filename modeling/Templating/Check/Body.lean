import Templating.Check.Findings
import Templating.Check.Limits
import Templating.Template.Variables
import Templating.Text.Search

/-!
# Checking a body

The body of a file is a template. Its check walks over the tokens once and counts what it meets;
from the counts it draws up its findings. A body is in error if a placeholder names no variable,
if the tags that open and close spans do not match, if a tag is of no known kind, if a guard
cannot be read, or if literal text holds an opening delimiter. Warnings are about deep nesting,
spans without content, long lines and mixed line ends.

## Main definitions

* `BodyScan`, `BodyScan.step`: the counts, and what a token adds to them.
* `checkBody`: the findings about a body.
-/

namespace Templating

open Templating.Template Templating.Text

/-- What the walk over the tokens of a body has met so far. `BodyScan.step` adds what the next token
has to say. -/
structure BodyScan where
  /-- Errors that name a position, in order. -/
  errors : List String
  /-- Warnings about names, in order. -/
  warnings : List String
  /-- Errors about guards, in order. -/
  guardErrors : List String
  /-- The tags of no known kind, in order. -/
  malformed : List String
  /-- How many tags open a span. -/
  opened : Nat
  /-- How many tags close a span. -/
  closed : Nat
  /-- How many spans are open. -/
  depth : Nat
  /-- How many spans were open at most. -/
  deepest : Nat
  /-- How often literal text opens a placeholder. -/
  unclosedPlaceholders : Nat
  /-- How often literal text opens a tag. -/
  unclosedTags : Nat
  /-- How many spans were closed without content. -/
  emptySpans : Nat
  /-- Whether only blank text was met since the last tag, and that tag opened a span. -/
  bodyEmpty : Bool

namespace BodyScan

/-- Nothing has been met. -/
def start : BodyScan :=
  ⟨[], [], [], [], 0, 0, 0, 0, 0, 0, 0, false⟩

/-- Meets literal text. -/
def meetText (run : List Char) (s : BodyScan) : BodyScan :=
  { s with
    unclosedPlaceholders := s.unclosedPlaceholders + countPair '{' '{' run
    unclosedTags := s.unclosedTags + countPair '{' '%' run
    bodyEmpty := s.bodyEmpty && run.all isBlank }

/-- Meets a placeholder with trimmed content at a position. -/
def meetPlaceholder (name : List Char) (position : Nat) (s : BodyScan) : BodyScan :=
  let shown := String.ofList name
  let s := { s with bodyEmpty := false }
  if name.isEmpty then
    { s with errors := s.errors ++ ["Empty variable at position " ++ position.repr] }
  else if !isVariableName shown then
    { s with
      errors := s.errors
        ++ ["Invalid variable name '" ++ shown ++ "' at position " ++ position.repr] }
  else if name.getLast? = some '.' then
    { s with warnings := s.warnings ++ ["Variable '" ++ shown ++ "' starts or ends with a dot"] }
  else if occursIn ['.', '.'] name then
    { s with
      warnings := s.warnings ++ ["Variable '" ++ shown ++ "' contains an empty path segment"] }
  else s

/-- Meets a tag that opens a span; its guard is read (`Guard.parse`), and an error about it is kept
apart from the others. -/
def meetOpening (guard : String) (s : BodyScan) : Except Fault BodyScan :=
  let s := { s with
    opened := s.opened + 1
    depth := s.depth + 1
    deepest := max s.deepest (s.depth + 1)
    bodyEmpty := true }
  match Guard.parse guard with
  | .ok _ => .ok s
  | .error (.guard fault) =>
    .ok { s with
      guardErrors := s.guardErrors
        ++ ["Invalid conditional expression '" ++ guard ++ "': " ++ fault.message] }
  | .error fault => .error fault

/-- Meets a tag that closes a span, or one for which no span is open, which is an error. -/
def meetClosing (position : Nat) (s : BodyScan) : BodyScan :=
  let s := { s with
    closed := s.closed + 1
    emptySpans := if s.bodyEmpty then s.emptySpans + 1 else s.emptySpans
    bodyEmpty := false }
  if s.depth = 0 then
    { s with
      errors := s.errors
        ++ ["Unexpected endif at position " ++ position.repr ++ " without a matching if"] }
  else { s with depth := s.depth - 1 }

/-- Meets a tag of no known kind. All of them are told in one error (`allErrors`). -/
def meetUnknown (text : String) (s : BodyScan) : BodyScan :=
  { s with malformed := s.malformed ++ [text], bodyEmpty := false }

/-- Meets a token, by one of the five functions above. -/
def step (s : BodyScan) (t : Token) : Except Fault BodyScan :=
  match t.shape with
  | .text run => .ok (s.meetText run)
  | .placeholder inner => .ok (s.meetPlaceholder (trim inner) t.start)
  | .tag inner =>
    match Tag.ofContent (trim inner) with
    | .opening guard => s.meetOpening guard
    | .closing => .ok (s.meetClosing t.start)
    | .unknown => .ok (s.meetUnknown t.text)

/-- The errors of a body. -/
def allErrors (s : BodyScan) : List String :=
  s.errors
    ++ (if s.opened = s.closed then []
      else
        ["Mismatched if/endif blocks: " ++ s.opened.repr ++ " if blocks, " ++ s.closed.repr
          ++ " endif blocks"])
    ++ (if s.malformed.isEmpty then []
      else ["Malformed conditional syntax: " ++ join ", " s.malformed])
    ++ s.guardErrors
    ++ (if s.unclosedPlaceholders = 0 then []
      else
        ["Unclosed variable tags detected: " ++ s.unclosedPlaceholders.repr ++ " instances"])
    ++ (if s.unclosedTags = 0 then []
      else ["Unclosed tags detected: " ++ s.unclosedTags.repr ++ " instances"])

/-- The warnings of a body that stem from its tokens. -/
def tokenWarnings (limits : Limits) (s : BodyScan) : List String :=
  s.warnings
    ++ (if limits.nestingDepth < s.deepest then
        ["Deep conditional nesting detected (depth: " ++ s.deepest.repr
          ++ "), consider simplifying"]
      else [])
    ++ (if s.emptySpans = 0 then []
      else ["Empty conditional blocks detected: " ++ s.emptySpans.repr ++ " blocks"])

end BodyScan

/-! ### Lines -/

/-- The line without the carriage returns at its end. -/
def withoutReturns (line : List Char) : List Char :=
  (line.reverse.dropWhile (· = '\r')).reverse

/-- How many lines of a body are too long, without counting the carriage returns at their ends
(`withoutReturns`). -/
def longLines (limits : Limits) (body : List Char) : Nat :=
  ((splitOn '\n' body).filter fun line =>
    decide (limits.lineLength < (withoutReturns line).length)).length

/-- Whether some line feeds of a body follow a carriage return and others do not. -/
def hasMixedLineEnds (body : List Char) : Bool :=
  let pairs := countPair '\r' '\n' body
  decide (0 < pairs) && decide (pairs < body.count '\n')

/-- The warnings of a body that stem from its lines. -/
def lineWarnings (limits : Limits) (body : List Char) : List String :=
  (if longLines limits body = 0 then []
    else
      [(longLines limits body).repr ++ " lines exceed " ++ integerText limits.lineLength
        ++ " characters"])
    ++ (if hasMixedLineEnds body then ["Mixed line endings detected (CRLF and LF)"] else [])

/-! ### Findings -/

/-- The findings about a body: what `BodyScan.step` meets along its tokens, and then the warnings
about its lines (`lineWarnings`). -/
def checkBody (limits : Limits) (body : String) : Except Fault Findings := do
  let s ← (tokenize body).foldlM BodyScan.step BodyScan.start
  return .of s.allErrors (s.tokenWarnings limits ++ lineWarnings limits body.toList)

end Templating
