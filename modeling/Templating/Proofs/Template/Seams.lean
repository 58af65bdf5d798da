import Templating.Proofs.Check.Body
import Templating.Proofs.Template.Scan
import Templating.Proofs.Template.Substitution

/-!
# Seams of a resolved text

The text that a template comes to when its spans are resolved is scanned once more for
placeholders. Where tags were taken out, literal text from both sides meets, and at such a seam
the two may make up an opening delimiter that neither side has. Here everything else is excluded:
a placeholder or tag of the resolved text of a body without errors is a kept placeholder of the
body, or it begins at a seam between a text that ends in an opening brace and one that begins
with an opening brace or a percent sign.

## Main definitions

* `IsSeam`: the places where two such texts meet.

## Main results

* `delimited_of_isPlain`: what is delimited in kept tokens stands in one of them or at a seam.
* `resolved_tokens`: the placeholders and tags of a resolved text.
* `brace_seam`: at a seam a new placeholder can arise.
-/

namespace Templating.Template

open Templating.Text

/-! ### Kept tokens -/

/-- The characters of tokens, one token after the other. They are the characters of `textOf`, and
here stretches of them are looked at that need not be whole tokens. -/
def sourceOf (ts : List Token) : List Char :=
  ts.flatMap fun t => t.shape.source

theorem toList_textOf (ts : List Token) : (textOf ts).toList = sourceOf ts := by
  rw [textOf, concat, String.toList_join, List.flatMap_map, sourceOf]
  refine List.flatMap_congr fun t _ => ?_
  rw [Token.text, String.toList_ofList]

@[simp] theorem sourceOf_cons (t : Token) (ts : List Token) :
    sourceOf (t :: ts) = t.shape.source ++ sourceOf ts := by
  simp [sourceOf]

/-- The place is the last character, an opening brace, of a literal text that stands directly
before a literal text with an opening brace or a percent sign at its head. -/
def IsSeam (ts : List Token) (place : Nat) : Prop :=
  ∃ before a b after run tail, ts = before ++ a :: b :: after ∧ a.shape = .text (run ++ ['{'])
    ∧ (b.shape = .text ('{' :: tail) ∨ b.shape = .text ('%' :: tail))
    ∧ place = (sourceOf before).length + run.length

/-- A token in front moves a seam by its length. -/
theorem IsSeam.cons {ts : List Token} {place : Nat} (t : Token) (h : IsSeam ts place) :
    IsSeam (t :: ts) (t.shape.source.length + place) := by
  obtain ⟨before, a, b, after, run, tail, rfl, ha, hb, rfl⟩ := h
  refine ⟨t :: before, a, b, after, run, tail, rfl, ha, hb, ?_⟩
  rw [sourceOf_cons, List.length_append, Nat.add_assoc]

/-- Literal text without an opening delimiter, or a placeholder that holds no brace and does not
begin with a percent sign. Inside such a token nothing is delimited but the token itself. -/
inductive IsPlain (t : Token) : Prop
  | text (run : List Char) (shape : t.shape = .text run) (nonempty : run ≠ [])
      (avoids : ¬ ['{', '{'] <:+: run ∧ ¬ ['{', '%'] <:+: run)
  | placeholder (c : Char) (rest : List Char) (shape : t.shape = .placeholder (c :: rest))
      (first : c ≠ '%') (braceless : ∀ d ∈ c :: rest, d ≠ '{' ∧ d ≠ '}')

/-- What begins inside a literal text begins with its last character, an opening brace, since the
text holds no delimiter (`head_of_delimited?`). -/
theorem eq_brace_of_delimited?_text {before ahead after run : List Char} {found : Shape × List Char}
    (havoids : ¬ ['{', '{'] <:+: run ∧ ¬ ['{', '%'] <:+: run) (hrun : run = before ++ ahead)
    (hne : ahead ≠ []) (h : delimited? (ahead ++ after) = some found) :
    ahead = ['{'] ∧ ∃ tail, after = '{' :: tail ∨ after = '%' :: tail := by
  obtain ⟨tail, htail⟩ := head_of_delimited? h
  cases ahead with
  | nil => exact absurd rfl hne
  | cons c ahead =>
    cases ahead with
    | nil =>
      rcases htail with heq | heq <;> cases heq
      · exact ⟨rfl, tail, .inl rfl⟩
      · exact ⟨rfl, tail, .inr rfl⟩
    | cons d ahead =>
      rcases htail with heq | heq <;> cases heq
      · exact absurd ⟨before, ahead, by simp [hrun]⟩ havoids.1
      · exact absurd ⟨before, ahead, by simp [hrun]⟩ havoids.2

/-- What begins inside a placeholder begins with it. Only its first two characters are opening
braces, and neither a brace nor a percent sign follows the second one. -/
theorem eq_nil_of_delimited?_placeholder {before ahead after rest : List Char} {c : Char}
    {found : Shape × List Char} (hfirst : c ≠ '%')
    (hbraceless : ∀ d ∈ c :: rest, d ≠ '{' ∧ d ≠ '}')
    (hsource : (Shape.placeholder (c :: rest)).source = before ++ ahead) (hne : ahead ≠ [])
    (h : delimited? (ahead ++ after) = some found) : before = [] := by
  obtain ⟨tail, htail⟩ := head_of_delimited? h
  have hhead : ahead.head? = some '{' := by
    cases ahead with
    | nil => exact absurd rfl hne
    | cons d ahead =>
      rcases htail with heq | heq
      · exact congrArg some (List.cons.inj heq).1
      · exact congrArg some (List.cons.inj heq).1
  match before with
  | [] => rfl
  | [b] =>
    obtain ⟨rfl, rfl⟩ : '{' = b ∧ '{' :: c :: (rest ++ ['}', '}']) = ahead := by
      simpa [Shape.source] using hsource
    rcases htail with heq | heq
    · exact absurd (List.cons.inj (List.cons.inj heq).2).1 (hbraceless c List.mem_cons_self).1
    · exact absurd (List.cons.inj (List.cons.inj heq).2).1 hfirst
  | b :: b' :: before =>
    have hinner : (c :: rest) ++ ['}', '}'] = before ++ ahead :=
      (List.cons.inj (List.cons.inj hsource).2).2
    have hmem : '{' ∈ ahead := List.mem_of_head? hhead
    have hin : '{' ∈ (c :: rest) ++ ['}', '}'] := by
      rw [hinner]
      exact List.mem_append_right _ hmem
    rcases List.mem_append.1 hin with hin | hin
    · exact absurd rfl (hbraceless '{' hin).1
    · simp at hin

/-- **What is delimited in the characters of plain tokens is one of them or begins at a seam.**
Induction along the tokens: what begins inside the first one is that token, or it begins with the
brace at its end. -/
theorem delimited_of_isPlain {ts : List Token} (hplain : ∀ t ∈ ts, IsPlain t)
    {before ahead rest : List Char} {shape : Shape} (hsource : sourceOf ts = before ++ ahead)
    (h : delimited? ahead = some (shape, rest)) :
    (∃ t ∈ ts, t.shape = shape) ∨ IsSeam ts before.length := by
  induction ts generalizing before with
  | nil =>
    obtain ⟨-, rfl⟩ : before = [] ∧ ahead = [] := by simpa [sourceOf] using hsource
    cases h
  | cons t ts ih =>
    have ih := @ih fun u hu => hplain u (List.mem_cons_of_mem _ hu)
    -- What begins behind the first token is told by the induction hypothesis.
    have hlater : ∀ before', sourceOf ts = before' ++ ahead → before = t.shape.source ++ before' →
        (∃ u ∈ t :: ts, u.shape = shape) ∨ IsSeam (t :: ts) before.length := by
      rintro before' happ rfl
      rcases ih happ with ⟨u, hu, hshape⟩ | hseam
      · exact .inl ⟨u, List.mem_cons_of_mem _ hu, hshape⟩
      · rw [List.length_append]
        exact .inr (hseam.cons t)
    rw [sourceOf_cons, List.append_eq_append_iff] at hsource
    rcases hsource with ⟨before', hbefore, happ⟩ | ⟨here, htoken, happ⟩
    · exact hlater before' happ hbefore
    by_cases hhere : here = []
    · refine hlater [] ?_ ?_
      · simp [happ, hhere]
      · simp [htoken, hhere]
    rw [happ] at h
    cases hplain t List.mem_cons_self with
    | text run hshape hne havoids =>
      rw [hshape] at htoken
      obtain ⟨rfl, tail, hafter⟩ := eq_brace_of_delimited?_text havoids htoken hhere h
      cases ts with
      | nil => simp [sourceOf] at hafter
      | cons u ts =>
        rw [sourceOf_cons] at hafter
        cases hplain u (List.mem_cons_of_mem _ List.mem_cons_self) with
        | text run' hshape' hne' _ =>
          obtain ⟨d, run', rfl⟩ := List.exists_cons_of_ne_nil hne'
          refine .inr ⟨[], t, u, ts, before, run', rfl, hshape.trans (congrArg _ htoken), ?_,
            by simp [sourceOf]⟩
          rw [hshape'] at hafter
          rcases hafter with heq | heq
          · exact .inl (by rw [hshape', (List.cons.inj heq).1])
          · exact .inr (by rw [hshape', (List.cons.inj heq).1])
        | placeholder c inner hshape' _ _ =>
          -- A placeholder follows the brace, and three braces in a row begin nothing.
          rw [sourceOf_cons, hshape'] at h
          exact absurd ((delimited?_brace_cons _).symm.trans h) (by simp)
    | placeholder c inner hshape hfirst hbraceless =>
      rw [hshape] at htoken
      obtain rfl := eq_nil_of_delimited?_placeholder hfirst hbraceless htoken hhere h
      rw [List.nil_append] at htoken
      rw [← htoken, delimited?_placeholder_append _ hbraceless] at h
      cases h
      exact .inl ⟨t, List.mem_cons_self, hshape⟩

/-- Inside a placeholder that holds a name no percent sign comes first. -/
theorem exists_cons_of_isName_trim {inner : List Char} (h : IsName (trim inner)) :
    ∃ c rest, inner = c :: rest ∧ c ≠ '%' := by
  obtain ⟨c, rest, htrim, hc, -⟩ := h
  cases inner with
  | nil => cases htrim
  | cons d inner =>
    refine ⟨d, inner, rfl, ?_⟩
    rintro rfl
    have hstart : trimStart ('%' :: inner) = '%' :: inner :=
      List.dropWhile_cons_of_neg (by decide)
    have hinitial : trim ('%' :: inner) <+: '%' :: inner := by
      rw [trim, hstart, trimEnd, ← List.reverse_suffix, List.reverse_reverse]
      exact List.dropWhile_suffix _
    rw [htrim] at hinitial
    obtain ⟨rfl, -⟩ := List.cons_prefix_cons.1 hinitial
    exact absurd hc (by decide)

/-- What is kept of a well-formed template is plain. Its tags are paired and so not kept
(`unpaired_of_mem_keptTokens`), and its placeholders hold names. -/
theorem isPlain_of_mem_keptTokens {template : String} (hwell : IsWellFormed (tokenize template))
    {configuration : Value} {kept : List Token}
    (hkept : keptTokens (tokenize template) configuration = .ok kept) {t : Token} (ht : t ∈ kept) :
    IsPlain t := by
  have htag := tag?_eq_none_of_mem_keptTokens hwell hkept ht
  obtain ⟨i, hi, -⟩ := unpaired_of_mem_keptTokens hkept ht
  have hmem := List.mem_of_getElem? hi
  cases hshape : t.shape with
  | text run =>
    have hne := source_ne_nil_of_mem_tokenize hmem
    rw [hshape] at hne
    obtain ⟨hfirst, hsecond⟩ := hwell.texts t hmem
    exact .text run hshape hne ⟨hfirst run hshape, hsecond run hshape⟩
  | placeholder inner =>
    obtain ⟨c, rest, rfl, hc⟩ := exists_cons_of_isName_trim (hwell.names t hmem inner hshape)
    exact .placeholder c rest hshape hc (not_brace_of_mem_tokenize hmem hshape)
  | tag inner => simp [Token.tag?, hshape] at htag

/-! ### The resolved text -/

/-- **Resolving spans makes no placeholder or tag but at a seam.** A placeholder or tag of the
resolved text of a body without errors begins at a seam (`IsSeam`), or it is one of the body. So a
variable that is read where values are inserted is one of the body's, and reported as missing if it
has no value, unless its placeholder begins at a seam; and if none does, the inserted text depends
on the body's variables only. -/
theorem resolved_tokens {limits : Limits} {template resolved : String} {findings : Findings}
    {configuration : Value} (hcheck : checkBody limits template = .ok findings)
    (hvalid : findings.isValid = true)
    (hresolved : resolveConditionals template configuration = .ok resolved) :
    ∃ kept, keptTokens (tokenize template) configuration = .ok kept ∧ resolved = textOf kept
      ∧ (∀ t ∈ tokenize resolved, t.IsDelimited →
        IsSeam kept t.start ∨ ∃ u ∈ tokenize template, u.IsDelimited ∧ u.text = t.text)
      ∧ (∀ t ∈ tokenize resolved, ∀ name, t.reference? = some name →
        IsSeam kept t.start ∨ name ∈ variableNames template
          ∧ (isSupplied (configuration.resolve name) = false →
            name ∈ missingVariables template configuration))
      ∧ ((∀ t ∈ tokenize resolved, ¬ IsSeam kept t.start) →
        ∀ configuration', (∀ name ∈ variableNames template,
          configuration'.resolve name = configuration.resolve name) →
            substitute resolved configuration' = substitute resolved configuration) := by
  have hwell := (isValid_iff_of_checkBody hcheck).1 hvalid
  rw [resolveConditionals, resolveSpans_eq] at hresolved
  obtain ⟨kept, hkept, rfl⟩ := map_eq_ok_iff.1 hresolved
  have hplain : ∀ t ∈ kept, IsPlain t := fun t ht => isPlain_of_mem_keptTokens hwell hkept ht
  -- What is kept is plain, so a token of the resolved text is one of the body or begins at a seam.
  have hshapes : ∀ t ∈ tokenize (textOf kept), t.IsDelimited →
      IsSeam kept t.start ∨ ∃ u ∈ tokenize template, u.shape = t.shape := by
    intro t ht hdelimited
    obtain ⟨before, ahead, rest, happ, hstart, hfound⟩ :=
      exists_delimited?_of_mem_tokenize ht hdelimited
    rw [toList_textOf] at happ
    rw [hstart]
    rcases delimited_of_isPlain hplain happ hfound with ⟨u, hu, hshape⟩ | hseam
    · obtain ⟨i, hi, -⟩ := unpaired_of_mem_keptTokens hkept hu
      exact .inr ⟨u, List.mem_of_getElem? hi, hshape⟩
    · exact .inl hseam
  -- The name that a token refers to depends on its shape only.
  have hnames : ∀ t ∈ tokenize (textOf kept), ∀ name, t.reference? = some name →
      IsSeam kept t.start ∨ name ∈ variableNames template := by
    intro t ht name href
    have hdelimited : t.IsDelimited := fun run hrun => by simp [Token.reference?, hrun] at href
    refine (hshapes t ht hdelimited).imp_right ?_
    rintro ⟨u, hu, hshape⟩
    refine mem_variableNames.2 ⟨u, hu, ?_⟩
    rw [← href, Token.reference?, Token.reference?, hshape]
  refine ⟨kept, hkept, rfl, fun t ht hdelimited => ?_, fun t ht name href => ?_, ?_⟩
  · refine (hshapes t ht hdelimited).imp_right ?_
    rintro ⟨u, hu, hshape⟩
    refine ⟨u, hu, fun run hrun => hdelimited run (hshape ▸ hrun), ?_⟩
    rw [Token.text, hshape, Token.text]
  · refine (hnames t ht name href).imp_right fun hname => ⟨hname, fun hmissing => ?_⟩
    exact List.mem_filter.2 ⟨hname, by rw [hmissing, Bool.not_false]⟩
  · intro hseamless configuration' hagree
    refine substitute_congr fun t ht name href => hagree name ?_
    exact (hnames t ht name href).resolve_left (hseamless t ht)

/-- A guarded placeholder whose guard is true stays as it is. -/
theorem resolved_tokens_guarded_placeholder :
    checkBody .standard "\x7b% if a %\x7d\x7b\x7b b \x7d\x7d\x7b% endif %\x7d"
        = .ok ⟨true, [], []⟩
      ∧ resolveConditionals "\x7b% if a %\x7d\x7b\x7b b \x7d\x7d\x7b% endif %\x7d"
        (.mapping [("a", .bool true)]) = .ok "\x7b\x7b b \x7d\x7d"
      ∧ ∃ kept, keptTokens (tokenize "\x7b% if a %\x7d\x7b\x7b b \x7d\x7d\x7b% endif %\x7d")
          (.mapping [("a", .bool true)]) = .ok kept ∧ "\x7b\x7b b \x7d\x7d" = textOf kept
        ∧ ∀ t ∈ tokenize "\x7b\x7b b \x7d\x7d", t.IsDelimited → IsSeam kept t.start
          ∨ ∃ u ∈ tokenize "\x7b% if a %\x7d\x7b\x7b b \x7d\x7d\x7b% endif %\x7d",
            u.IsDelimited ∧ u.text = t.text := by
  have hcheck : checkBody .standard "\x7b% if a %\x7d\x7b\x7b b \x7d\x7d\x7b% endif %\x7d"
      = .ok ⟨true, [], []⟩ := by decide +kernel
  have hresolved : resolveConditionals
      "\x7b% if a %\x7d\x7b\x7b b \x7d\x7d\x7b% endif %\x7d" (.mapping [("a", .bool true)])
        = .ok "\x7b\x7b b \x7d\x7d" := by decide +kernel
  obtain ⟨kept, hkept, htext, htokens, -⟩ := resolved_tokens hcheck rfl hresolved
  exact ⟨hcheck, hresolved, kept, hkept, htext, htokens⟩

/-- A body without errors and without placeholders, in whose resolved text the braces on both
sides of a tag make up a placeholder. -/
theorem brace_seam :
    checkBody .standard "\x7b\x7b% if a %\x7d\x7bname\x7d\x7d\x7b% endif %\x7d"
        = .ok ⟨true, [], []⟩
      ∧ resolveConditionals "\x7b\x7b% if a %\x7d\x7bname\x7d\x7d\x7b% endif %\x7d"
        (.mapping [("a", .bool true), ("name", .text "x")]) = .ok "\x7b\x7bname\x7d\x7d"
      ∧ (∃ t ∈ tokenize "\x7b\x7bname\x7d\x7d", t.reference? = some "name" ∧ t.IsDelimited
        ∧ ∀ u ∈ tokenize "\x7b\x7b% if a %\x7d\x7bname\x7d\x7d\x7b% endif %\x7d",
          u.text ≠ t.text)
      ∧ variableNames "\x7b\x7b% if a %\x7d\x7bname\x7d\x7d\x7b% endif %\x7d" = []
      ∧ renderText "\x7b\x7b% if a %\x7d\x7bname\x7d\x7d\x7b% endif %\x7d"
        (.mapping [("a", .bool true), ("name", .text "x")]) = .ok "x" := by
  have htokens : tokenize "\x7b\x7bname\x7d\x7d"
      = [⟨.placeholder ['n', 'a', 'm', 'e'], 0⟩] := by decide +kernel
  have htexts : (tokenize "\x7b\x7b% if a %\x7d\x7bname\x7d\x7d\x7b% endif %\x7d").map
      Token.text = ["\x7b", "\x7b% if a %\x7d", "\x7bname\x7d\x7d", "\x7b% endif %\x7d"] := by
    decide +kernel
  refine ⟨by decide +kernel, by decide +kernel,
    ⟨⟨.placeholder ['n', 'a', 'm', 'e'], 0⟩, ?_, by decide +kernel, ?_, ?_⟩,
    by decide +kernel, by decide +kernel⟩
  · rw [htokens]
    exact List.mem_singleton_self _
  · rintro run ⟨⟩
  · intro u hu heq
    have hmem := List.mem_map_of_mem (f := Token.text) hu
    rw [htexts, heq] at hmem
    revert hmem
    decide

end Templating.Template
