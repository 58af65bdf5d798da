import Templating.Guard.Eval
import Templating.Template.Token
import Templating.Text.Search

/-!
# Conditional spans

A tag that opens a conditional span and the tag that closes it are partners: a closing tag
belongs to the nearest open span before it. A span is replaced by its body if its guard is true
in the configuration and dropped if it is false; spans inside a dropped one are not looked at.
Tags without a partner are literal text.

The spans of a template are resolved in one pass over its tokens. The pass keeps for every open
span whether its body is kept, and how many of them are dropped.

## Main definitions

* `pairedTags`: the places of the tags that have a partner.
* `Pass`, `Pass.step`: the state of the pass and what one token does to it.
* `resolveConditionals`: the template with its spans resolved.
* `nestingDepth`: how deep the spans of a template nest.
-/

namespace Templating.Template

/-! ### Partners -/

/-- The search for partners: the places found so far, and those of the opening tags that still wait
for one, the latest first, so that a closing tag takes the nearest. -/
structure Pairing where
  paired : List Nat
  waiting : List Nat

/-- What the tag at a place does to the search. -/
def Pairing.step (p : Pairing) (entry : Token × Nat) : Pairing :=
  match entry.1.tag? with
  | some (.opening _) => { p with waiting := entry.2 :: p.waiting }
  | some .closing =>
    match p.waiting with
    | [] => p
    | i :: waiting => ⟨entry.2 :: i :: p.paired, waiting⟩
  | _ => p

/-- The places in the token list of the tags that have a partner, by `Pairing.step` along the
list. -/
def pairedTags (tokens : List Token) : List Nat :=
  (tokens.zipIdx.foldl Pairing.step ⟨[], []⟩).paired

/-! ### Resolving spans -/

/-- The state of the pass: for every open span whether its body is kept, the innermost first; how
many of them are dropped; and the text kept so far, the latest part first. It is what `Pass.step`
goes along the tokens with. -/
structure Pass where
  spans : List Bool
  dropped : Nat
  kept : List String

namespace Pass

/-- Opens a span. Its guard is evaluated only if nothing around the span is dropped. -/
def openSpan (configuration : Value) (guard : String) (p : Pass) : Except Fault Pass := do
  let keep ← if p.dropped = 0 then Guard.evaluate guard configuration else pure false
  return { p with spans := keep :: p.spans, dropped := if keep then p.dropped else p.dropped + 1 }

/-- Closes the innermost open span. The fault for a span that is not open never occurs in
`resolveSpans`; it is kept because the step by itself allows it. -/
def closeSpan (p : Pass) : Except Fault Pass :=
  match p.spans with
  | [] => .error .noOpenSpan
  | keep :: spans =>
    .ok { p with spans := spans, dropped := if keep then p.dropped else p.dropped - 1 }

/-- Keeps the text of a token, unless a span around it is dropped. -/
def emit (t : Token) (p : Pass) : Pass :=
  if p.dropped = 0 then { p with kept := t.text :: p.kept } else p

/-- What the token at a place does to the pass. Tags without a partner are kept as text, like any
other token. -/
def step (configuration : Value) (paired : List Nat) (p : Pass) (entry : Token × Nat) :
    Except Fault Pass :=
  if paired.contains entry.2 then
    match entry.1.tag? with
    | some (.opening guard) => p.openSpan configuration guard
    | _ => p.closeSpan
  else .ok (p.emit entry.1)

end Pass

/-- The text of a token list with the conditional spans resolved: one pass of `Pass.step` along the
tokens. -/
def resolveSpans (tokens : List Token) (configuration : Value) : Except Fault String := do
  let pass ← tokens.zipIdx.foldlM (Pass.step configuration (pairedTags tokens)) ⟨[], 0, []⟩
  return Text.concat pass.kept.reverse

/-- A template with its conditional spans resolved (`resolveSpans` of its tokens). -/
def resolveConditionals (template : String) (configuration : Value) : Except Fault String :=
  resolveSpans (tokenize template) configuration

/-! ### Depth -/

/-- The current and the greatest depth of open spans. -/
structure Depth where
  current : Nat
  deepest : Nat

/-- What a token does to the depth. A closing tag counts only where a span is open. -/
def Depth.step (d : Depth) (t : Token) : Depth :=
  match t.tag? with
  | some (.opening _) => ⟨d.current + 1, max d.deepest (d.current + 1)⟩
  | some .closing => { d with current := d.current - 1 }
  | _ => d

/-- How deep the spans of a template nest, counting spans that are never closed. -/
def nestingDepth (template : String) : Nat :=
  ((tokenize template).foldl Depth.step ⟨0, 0⟩).deepest

end Templating.Template
