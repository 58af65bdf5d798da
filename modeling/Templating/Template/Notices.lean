import Templating.Notice
import Templating.Template.Conditional

/-!
# Notices about a template

Rendering a template gives notice of the guards that it evaluates and cannot read, and of the
tags without a partner that it keeps, in the order of the template. Nothing inside a dropped span
is told of.

## Main definitions

* `guardNotices`: what evaluating a guard gives notice of.
* `templateNotices`: what rendering a template gives notice of.
-/

namespace Templating.Template

/-- What evaluating a guard gives notice of. -/
def guardNotices (guard : String) : List Notice :=
  match Guard.parse guard with
  | .error (.guard fault) => [.unreadableGuard guard fault]
  | _ => []

/-- What keeping a token gives notice of. -/
def keptNotices (t : Token) : List Notice :=
  match t.tag? with
  | some (.opening _) => [.unmatchedOpening t.start]
  | some .closing => [.unmatchedClosing t.start]
  | _ => []

/-- What one step of the pass gives notice of. -/
def Pass.notices (paired : List Nat) (p : Pass) (entry : Token × Nat) : List Notice :=
  if p.dropped ≠ 0 then []
  else if paired.contains entry.2 then
    match entry.1.tag? with
    | some (.opening guard) => guardNotices guard
    | _ => []
  else keptNotices entry.1

/-- What the pass gives notice of from some state on. -/
def noticesFrom (configuration : Value) (paired : List Nat) :
    Pass → List (Token × Nat) → List Notice
  | _, [] => []
  | p, entry :: rest =>
    p.notices paired entry ++
      match p.step configuration paired entry with
      | .ok p => noticesFrom configuration paired p rest
      | .error _ => []

/-- What rendering a template gives notice of. -/
def templateNotices (template : String) (configuration : Value) : List Notice :=
  let tokens := tokenize template
  noticesFrom configuration (pairedTags tokens) ⟨[], 0, []⟩ tokens.zipIdx

end Templating.Template
