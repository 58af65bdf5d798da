import Templating.Proofs.Check.GuardErrors
import Templating.Proofs.Guard.BlankEnds
import Templating.Proofs.Template.Wrapping

/-!
# The law of wrapping

A text whose opening and closing tags all have partners is wrapped by an opening tag before it and
a closing tag behind it. The two become partners of each other, and the spans of the text are those
that it has by itself, one level deeper. So the wrapped text comes to what the text comes to if the
guard of the opening tag is true, and to nothing if it is false.

## Main definitions

* `TagsPaired`: every tag that opens or closes a span has a partner.
* `Nesting.moved`: a tree one place further on in the token list.
* `OpenNesting.enclosed`: an open nesting inside one more open span.

## Main results

* `OpenNesting.run_enclosed`: the walk over paired tags does the same inside one more span.
* `nestingOf_wrapped`: the tree of a wrapped token list.
* `resolveSpans_wrapped`: what a wrapped token list comes to.
-/

namespace Templating.Template

open Templating.Text

/-- Every tag that opens or closes a span has a partner (`pairedTags`). -/
def TagsPaired (tokens : List Token) : Prop :=
  ∀ i t, tokens[i]? = some t → t.opens = true ∨ t.closes = true → i ∈ pairedTags tokens

variable {tokens : List Token} {d : Nat}

/-- All tags are paired if the place of each is among those that the search finds. -/
theorem tagsPaired_iff : TagsPaired tokens ↔ ∀ entry ∈ tokens.zipIdx,
    entry.1.opens = true ∨ entry.1.closes = true → entry.2 ∈ pairedTags tokens := by
  refine ⟨fun h entry hentry => ?_, fun h i t ht => ?_⟩
  · exact h entry.2 entry.1 (List.mk_mem_zipIdx_iff_getElem?.1 hentry)
  · exact h (t, i) (List.mk_mem_zipIdx_iff_getElem?.2 ht)

instance : Decidable (TagsPaired tokens) :=
  decidable_of_iff _ tagsPaired_iff.symm

/-- Where all tags are paired, so are the closing ones. -/
theorem TagsPaired.closingsPaired (h : TagsPaired tokens) :
    BodyScan.ClosingsPaired tokens tokens.length := by
  intro i hi hc
  have ht : tokens[i]? = some tokens[i] := List.getElem?_eq_getElem hi
  rw [closesAt_eq ht] at hc
  obtain ⟨pair, hpair, heq | heq⟩ := mem_pairedTags.1 (h i _ ht (.inr hc))
  · have ho := (lt_of_mem_partnersUpTo hpair).2.2.1
    rw [← heq, opensAt_eq ht, Token.opens_eq_false_of_closes hc] at ho
    exact absurd ho Bool.false_ne_true
  · exact ⟨pair, hpair, heq.symm⟩

/-- Before a closing tag an opening tag waits for it, as the closing tag would be on its own
otherwise (`BodyScan.closingsPaired_succ`). -/
theorem TagsPaired.waitingAfter_ne_nil (h : TagsPaired tokens) {n : Nat} {t : Token}
    (ht : tokens[n]? = some t) (hc : t.closes = true) : waitingAfter tokens n ≠ [] := by
  have hn : n + 1 ≤ tokens.length := (List.getElem?_eq_some_iff.1 ht).1
  have hbefore : BodyScan.ClosingsPaired tokens (n + 1) := by
    refine Nat.decreasingInduction' (P := BodyScan.ClosingsPaired tokens) (fun k hk _ hpaired => ?_)
      hn h.closingsPaired
    exact ((BodyScan.closingsPaired_succ (List.getElem?_eq_getElem hk)).1 hpaired).1
  exact ((BodyScan.closingsPaired_succ ht).1 hbefore).2 hc

/-! ### Trees further on -/

/-- A placed token some characters and one place further on, as the tokens behind one more opening
tag are. -/
def movedEntry (d : Nat) (entry : Token × Nat) : Token × Nat :=
  (entry.1.moved d, entry.2 + 1)

namespace Nesting

/-- The tree some characters and one place further on. -/
def moved (d : Nat) : Nesting → Nesting
  | done => done
  | single entry rest => single (movedEntry d entry) (rest.moved d)
  | span opening body closing rest =>
    span (movedEntry d opening) (body.moved d) (movedEntry d closing) (rest.moved d)

theorem moved_append (f g : Nesting) : (f.append g).moved d = (f.moved d).append (g.moved d) := by
  induction f with
  | done => rfl
  | single entry rest ih => exact congrArg (single _) ih
  | span opening body closing rest _ ih => exact congrArg (span _ _ _) ih

/-- A tree comes to the same tokens wherever it stands: guards are evaluated on the inside of tags,
which `Token.moved` leaves as it is. -/
theorem kept_moved (configuration : Value) (f : Nesting) :
    (f.moved d).kept configuration = (f.kept configuration).map (List.map (Token.moved d)) := by
  induction f with
  | done => rfl
  | single entry rest ih =>
    rw [moved, kept, kept, ih]
    cases rest.kept configuration <;> rfl
  | span opening body closing rest ihb ihr =>
    have hguard : (movedEntry d opening).1.guard = opening.1.guard := rfl
    rw [moved, kept, kept, ihb, ihr, hguard]
    cases Guard.evaluate opening.1.guard configuration with
    | error fault => rfl
    | ok keep =>
      cases keep with
      | false => cases rest.kept configuration <;> rfl
      | true =>
        cases body.kept configuration with
        | error fault => rfl
        | ok inside =>
          cases rest.kept configuration with
          | error fault => rfl
          | ok after => exact congrArg Except.ok (List.map_append).symm

end Nesting

namespace OpenNesting

/-- An open nesting further on, inside one more open span, which is the outermost of its frames. -/
def enclosed (d : Nat) (bottom : Nesting × (Token × Nat)) (s : OpenNesting) : OpenNesting :=
  ⟨s.frames.map (fun frame => (frame.1.moved d, movedEntry d frame.2)) ++ [bottom],
    s.inner.moved d⟩

/-- Inside one more span a token does the same, unless it is a closing tag on its own. -/
theorem step_enclosed {s : OpenNesting} {entry : Token × Nat}
    (hstray : entry.1.closes = true → s.frames ≠ []) (bottom : Nesting × (Token × Nat)) :
    (s.enclosed d bottom).step (movedEntry d entry) = (s.step entry).enclosed d bottom := by
  have hopens : (movedEntry d entry).1.opens = entry.1.opens := rfl
  have hcloses : (movedEntry d entry).1.closes = entry.1.closes := rfl
  rw [step, step, hopens, hcloses]
  split
  · rfl
  · split
    · rename_i hc
      cases hframes : s.frames with
      | nil => exact absurd hframes (hstray hc)
      | cons frame frames =>
        simp [enclosed, hframes, Nesting.moved_append, Nesting.moved]
    · simp [enclosed, Nesting.moved_append, Nesting.moved]

/-- The walk over a token list whose tags are paired does the same inside one more span. Induction
along the tokens; no closing tag stands on its own (`TagsPaired.waitingAfter_ne_nil`), so
`step_enclosed` applies. -/
theorem run_enclosed (h : TagsPaired tokens) (bottom : Nesting × (Token × Nat)) {n : Nat}
    (hn : n ≤ tokens.length) :
    ((tokens.zipIdx.take n).map (movedEntry d)).foldl step (enclosed d bottom ⟨[], .done⟩)
      = (run (tokens.zipIdx.take n)).enclosed d bottom := by
  induction n with
  | zero => rfl
  | succ n ih =>
    have ht : tokens[n]? = some tokens[n] := List.getElem?_eq_getElem hn
    rw [take_zipIdx_succ ht, List.map_append, List.foldl_append, ih (by omega),
      run_append_singleton]
    refine step_enclosed (fun hc hframes => h.waitingAfter_ne_nil ht hc ?_) bottom
    rw [← (follows_run_take tokens (Nat.le_of_succ_le hn)).frames_eq, hframes]
    rfl

end OpenNesting

/-! ### Wrapped token lists -/

/-- The places of tokens between two tags are moved by one. -/
theorem zipIdx_wrapped (opening closing : Token) (tokens : List Token) :
    (opening :: (tokens.map (Token.moved d) ++ [closing])).zipIdx
      = (opening, 0) :: (tokens.zipIdx.map (movedEntry d) ++ [(closing, tokens.length + 1)]) := by
  have hinside : (tokens.map (Token.moved d)).zipIdx 1 = tokens.zipIdx.map (movedEntry d) := by
    rw [List.zipIdx_succ, List.zipIdx_map, List.map_map]
    rfl
  rw [List.zipIdx_cons, Nat.zero_add, List.zipIdx_append, hinside, List.length_map,
    Nat.add_comm 1]
  rfl

/-- **The tree of a wrapped token list is one span around the tree of the list.** By `run_enclosed`
the span is still open when the closing tag comes, and no other one is. -/
theorem nestingOf_wrapped (h : TagsPaired tokens) {opening closing : Token}
    (ho : opening.opens = true) (hc : closing.closes = true) :
    nestingOf (opening :: (tokens.map (Token.moved d) ++ [closing]))
      = .span (opening, 0) ((nestingOf tokens).moved d) (closing, tokens.length + 1) .done := by
  have hframes : (OpenNesting.run tokens.zipIdx).frames = [] := by
    have hwaiting := (BodyScan.waitingAfter_eq_nil_iff h.closingsPaired).2 h
    rw [← (follows_nestingOf tokens).frames_eq] at hwaiting
    exact List.map_eq_nil_iff.1 hwaiting
  have hfirst : OpenNesting.step ⟨[], .done⟩ (opening, 0)
      = OpenNesting.enclosed d (.done, (opening, 0)) ⟨[], .done⟩ := by
    rw [OpenNesting.step, if_pos ho]
    rfl
  have hinside := OpenNesting.run_enclosed (d := d) h (.done, (opening, 0)) le_rfl
  rw [List.take_of_length_le (by simp)] at hinside
  rw [nestingOf, OpenNesting.run, zipIdx_wrapped, List.foldl_cons, hfirst, List.foldl_append,
    hinside, List.foldl_cons, List.foldl_nil, OpenNesting.enclosed, hframes, OpenNesting.step,
    if_neg (by simp [Token.opens_eq_false_of_closes hc]), if_pos hc, nestingOf, OpenNesting.closed,
    OpenNesting.closed, hframes]
  rfl

/-- Moving tokens does not change their text, as `textOf` does not look at where they start. -/
theorem textOf_moved (ts : List Token) : textOf (ts.map (Token.moved d)) = textOf ts := by
  rw [textOf, textOf, List.map_map]
  rfl

/-- **A wrapped token list comes to what the list comes to** if the guard of its opening tag is
true, and to nothing if it is false. On trees (`nestingOf_wrapped`) this is what `Nesting.kept` does
with one span. -/
theorem resolveSpans_wrapped (h : TagsPaired tokens) {opening closing : Token}
    (ho : opening.opens = true) (hc : closing.closes = true) (configuration : Value) :
    resolveSpans (opening :: (tokens.map (Token.moved d) ++ [closing])) configuration
      = (do if ← Guard.evaluate opening.guard configuration then resolveSpans tokens configuration
            else return "") := by
  rw [resolveSpans_eq, resolveSpans_eq, ← kept_nestingOf, ← kept_nestingOf,
    nestingOf_wrapped h ho hc, Nesting.kept, Nesting.kept_moved]
  cases Guard.evaluate opening.guard configuration with
  | error fault => rfl
  | ok keep =>
    cases keep with
    | false => rfl
    | true =>
      cases (nestingOf tokens).kept configuration with
      | error fault => rfl
      | ok ts =>
        refine congrArg Except.ok ?_
        rw [List.append_nil]
        exact textOf_moved ts

/-! ### The guard of an opening tag -/

/-- The guard of an opening tag is what stands after its first word, without the blank space around
it. -/
theorem tag?_guardTag_surrounded {before core after : List Char}
    (hbefore : ∀ c ∈ before, isBlank c = true) (hafter : ∀ c ∈ after, isBlank c = true)
    (hhead : ∀ c, core.head? = some c → isBlank c = false)
    (hlast : ∀ c, core.getLast? = some c → isBlank c = false) (start : Nat) :
    Token.tag? ⟨guardTag (before ++ (core ++ after)), start⟩
      = some (.opening (String.ofList core)) := by
  have hspace : ∀ c ∈ [' '], isBlank c = true := List.forall_mem_singleton.2 (by decide)
  rw [Token.tag?, guardTag]
  dsimp only
  by_cases hcore : core = []
  · -- Nothing but blank space follows the first word.
    subst hcore
    have hword : trim ([' '] ++ (['i', 'f', ' '] ++ (before ++ ([] ++ after)) ++ [' ']))
        = ['i', 'f'] := by
      have hblank : ∀ c ∈ [' '] ++ (before ++ after ++ [' ']), isBlank c = true := by
        simp only [List.forall_mem_append]
        exact ⟨hspace, ⟨hbefore, hafter⟩, hspace⟩
      have htrim : trim ([' '] ++ (['i', 'f'] ++ ([' '] ++ (before ++ after ++ [' ']))))
          = ['i', 'f'] := by
        refine Text.trim_append_append (by simp) hspace hblank ?_ ?_
        · rintro c ⟨⟩
          decide
        · rintro c ⟨⟩
          decide
      simpa using htrim
    rw [hword]
    rfl
  · have hcontent : trim ([' '] ++ (['i', 'f', ' '] ++ (before ++ (core ++ after)) ++ [' ']))
        = ['i', 'f', ' '] ++ (before ++ core) := by
      have hblank : ∀ c ∈ after ++ [' '], isBlank c = true :=
        List.forall_mem_append.2 ⟨hafter, hspace⟩
      have htrim : trim ([' '] ++ (['i', 'f', ' '] ++ (before ++ core) ++ (after ++ [' '])))
          = ['i', 'f', ' '] ++ (before ++ core) := by
        refine Text.trim_append_append (by simp) hspace hblank ?_ fun c hc => hlast c ?_
        · rintro c ⟨⟩
          decide
        · rwa [List.getLast?_append_of_ne_nil _ (by simp [hcore]),
            List.getLast?_append_of_ne_nil _ hcore] at hc
      simpa using htrim
    have hguard : trim ((' ' :: before) ++ (core ++ [])) = core :=
      Text.trim_append_append hcore (List.forall_mem_cons.2 ⟨by decide, hbefore⟩) (by simp) hhead
        hlast
    rw [List.append_nil] at hguard
    rw [hcontent]
    exact congrArg (fun guard => some (Tag.opening (String.ofList guard))) hguard

/-- Where an opening tag is cut off as one token, it holds neither delimiter, so `Shape.Fits` holds
for it. -/
theorem fits_guardTag_of_tokenize {guard : List Char} {t : Token}
    (h : tokenize (String.ofList (guardTag guard).source) = [t]) (ho : t.opens = true) :
    (guardTag guard).Fits := by
  obtain ⟨inner, hshape⟩ : ∃ inner, t.shape = .tag inner := by
    have htag := Token.tag?_of_opens ho
    rw [Token.tag?] at htag
    split at htag
    · rename_i inner hshape
      exact ⟨inner, hshape⟩
    · cases htag
  have hmem : t ∈ tokenize (String.ofList (guardTag guard).source) :=
    h ▸ List.mem_singleton_self t
  have hdelimited : t.IsDelimited := fun run hrun => by cases hshape.symm.trans hrun
  obtain ⟨_, _, _, _, _, hfound⟩ := exists_delimited?_of_mem_tokenize hmem hdelimited
  have hfits := (delimited?_eq_some_iff.1 hfound).2
  have hcovers := (tiles_tokenize (String.ofList (guardTag guard).source)).toList_concat
  have htext : concat [t.text] = t.text := by
    rw [concat_cons]
    exact String.append_empty
  rw [h, List.map_singleton, htext, Token.text, String.toList_ofList, String.toList_ofList,
    hshape] at hcovers
  have hinner : inner = [' '] ++ (['i', 'f', ' '] ++ guard ++ [' ']) :=
    List.append_cancel_right (List.cons.inj (List.cons.inj hcovers).2).2
  rw [hshape, hinner] at hfits
  exact hfits

/-! ### Wrapped texts -/

/-- A text whose tags are paired, between an opening tag and a closing tag, comes to what it comes
to by itself if the guard is true, and to nothing if it is false. -/
theorem resolveConditionals_guardTag {guard cs : List Char} (hguard : (guardTag guard).Fits)
    (htags : TagsPaired (tokenize (String.ofList cs))) (configuration : Value) :
    resolveConditionals (String.ofList ((guardTag guard).source ++ (cs ++ closingTag.source)))
        configuration
      = (do if ← Guard.evaluate (String.ofList guard) configuration then
              resolveConditionals (String.ofList cs) configuration
            else return "") := by
  obtain ⟨before, core, after, rfl, hbefore, hafter, hhead, hlast⟩ := exists_surrounded guard
  have htag := tag?_guardTag_surrounded hbefore hafter hhead hlast 0
  have hclosing : Token.closes ⟨closingTag, (guardTag (before ++ (core ++ after))).source.length
      + cs.length⟩ = true := rfl
  rw [resolveConditionals, tokenize_wrapped hguard, resolveSpans_wrapped htags
    (Token.opens_iff.2 ⟨_, htag⟩) hclosing, Token.guard, htag,
    Guard.evaluate_surrounded hbefore hafter]
  rfl

/-- The tag of a guard is written with single spaces around it. -/
theorem ofList_source_guardTag (guard : String) :
    String.ofList (guardTag guard.toList).source = "\x7b% if " ++ guard ++ " %\x7d" := by
  refine String.toList_injective ?_
  simp [guardTag, Shape.source]

/-- Wrapping a text, all of whose opening and closing tags have partners, into a span under a guard
that makes up one tag: the outcome is that of the text if the guard is true and the empty text if it
is false, whatever the text begins or ends with; and a guard that fails makes the whole fail. -/
theorem resolveConditionals_wrapped {guard template : String}
    (hguard : ∃ t, tokenize ("\x7b% if " ++ guard ++ " %\x7d") = [t] ∧ t.opens = true)
    (htags : TagsPaired (tokenize template)) (configuration : Value) :
    resolveConditionals ("\x7b% if " ++ guard ++ " %\x7d" ++ template ++ "\x7b% endif %\x7d")
        configuration
      = (do if ← Guard.evaluate guard configuration then resolveConditionals template configuration
            else return "") := by
  obtain ⟨t, htokens, hopens⟩ := hguard
  rw [← ofList_source_guardTag] at htokens
  have hfits := fits_guardTag_of_tokenize htokens hopens
  have hwrapped : "\x7b% if " ++ guard ++ " %\x7d" ++ template ++ "\x7b% endif %\x7d"
      = String.ofList ((guardTag guard.toList).source
        ++ (template.toList ++ closingTag.source)) := by
    rw [← ofList_source_guardTag]
    refine String.toList_injective ?_
    simp [closingTag, Shape.source]
  rw [← String.ofList_toList (s := template)] at htags
  rw [hwrapped, resolveConditionals_guardTag hfits htags, String.ofList_toList,
    String.ofList_toList]

/-- A text that begins with a closing brace and ends with an opening delimiter. -/
theorem resolveConditionals_wrapped_unclosed :
    (∃ t, tokenize ("\x7b% if " ++ "a" ++ " %\x7d") = [t] ∧ t.opens = true)
      ∧ TagsPaired (tokenize "\x7d\x7b% if b %\x7dy\x7b% endif %\x7d\x7b\x7b x \x7b% z \x7b")
      ∧ resolveConditionals ("\x7b% if " ++ "a" ++ " %\x7d"
          ++ "\x7d\x7b% if b %\x7dy\x7b% endif %\x7d\x7b\x7b x \x7b% z \x7b"
          ++ "\x7b% endif %\x7d") (.mapping [("a", .bool true), ("b", .bool true)])
        = .ok "\x7dy\x7b\x7b x \x7b% z \x7b" := by
  have hguard : ∃ t, tokenize ("\x7b% if " ++ "a" ++ " %\x7d") = [t] ∧ t.opens = true :=
    ⟨⟨guardTag ['a'], 0⟩, by decide +kernel, by decide +kernel⟩
  have htags : TagsPaired
      (tokenize "\x7d\x7b% if b %\x7dy\x7b% endif %\x7d\x7b\x7b x \x7b% z \x7b") := by
    decide +kernel
  refine ⟨hguard, htags, ?_⟩
  rw [resolveConditionals_wrapped hguard htags]
  decide +kernel

end Templating.Template
