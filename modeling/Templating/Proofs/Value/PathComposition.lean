import Templating.Proofs.Value.Places

/-!
# One path after another

A dot between two paths joins them to a path whose segments are those of the first and then those
of the second. So the joined path leads to where the second leads from the mapping that stands at
the first, and nowhere if no mapping stands there. A path leads nowhere in any configuration exactly
if it has an empty segment, which can be told from where its dots stand: any other path leads to the
value around which its segments are nested.

## Main definitions

* `HasEmptySegment`: where the dots of a path with an empty segment may stand.
* `Value.nest`: mappings of one entry each, nested around a value.

## Main results

* `segments_append`, `segments_join`: the segments of a joined path.
* `hasEmptySegment_iff`: the paths with an empty segment, told by their dots.
* `Value.resolve_append`: one path after another.
* `Value.resolve_nest`: the path along which mappings are nested around a value.
* `resolve_composes`: where a joined path leads.
-/

namespace Templating

open Templating.Text

/-! ### Segments of a joined path -/

theorem splitOn_cons_self (separator : Char) (cs : List Char) :
    splitOn separator (separator :: cs) = [] :: splitOn separator cs := by
  rw [splitOn, if_pos rfl]

/-- A separator separates the parts of what is on its two sides. Induction along what stands in
front of it. -/
theorem splitOn_append_cons (separator : Char) (front rest : List Char) :
    splitOn separator (front ++ separator :: rest)
      = splitOn separator front ++ splitOn separator rest := by
  induction front with
  | nil => exact splitOn_cons_self separator rest
  | cons c front ih =>
    rw [List.cons_append, splitOn, splitOn, ih]
    split
    · rfl
    · cases hsplit : splitOn separator front with
      | nil => exact absurd hsplit (splitOn_ne_nil separator front)
      | cons part parts => rfl

/-- The `segments` of two paths with a dot between them are those of the first and then those of the
second. -/
theorem segments_append (p q : String) : segments (p ++ "." ++ q) = segments p ++ segments q := by
  have hchars : (p ++ "." ++ q).toList = p.toList ++ '.' :: q.toList := by
    rw [String.toList_append, String.toList_append, List.append_assoc]
    rfl
  rw [segments, hchars, splitOn_append_cons, List.map_append]
  rfl

/-- The segments of a path are the names of which it was made. Induction along the names with
`segments_append`, a single name apart. -/
theorem segments_join {names : List String} (hne : names ≠ [])
    (hpoint : ∀ name ∈ names, '.' ∉ name.toList) : segments (join "." names) = names := by
  induction names with
  | nil => exact absurd rfl hne
  | cons name rest ih =>
    obtain ⟨hname, hrest⟩ := List.forall_mem_cons.1 hpoint
    have hsingle : segments name = [name] := segments_eq_singleton_iff.2 ⟨rfl, hname⟩
    cases rest with
    | nil => rw [join, String.intercalate_singleton, hsingle]
    | cons next rest =>
      rw [join, String.intercalate_cons_cons, segments_append, hsingle, ← join,
        ih (List.cons_ne_nil _ _) hrest]
      rfl

/-! ### Empty segments -/

variable {separator : Char} {cs : List Char}

/-- If a part is empty, the first one is, and then the text is empty or begins with a separator, or
one of the others is. -/
theorem of_nil_mem_splitOn (h : [] ∈ splitOn separator cs) :
    cs = [] ∨ cs.head? = some separator ∨ [] ∈ (splitOn separator cs).tail := by
  cases cs with
  | nil => exact .inl rfl
  | cons c cs =>
    rw [splitOn] at h ⊢
    split at h
    · rename_i hc
      exact .inr (.inl (congrArg some hc))
    · rename_i hc
      rw [if_neg hc]
      cases hsplit : splitOn separator cs with
      | nil => exact absurd hsplit (splitOn_ne_nil separator cs)
      | cons part parts =>
        rw [hsplit] at h
        exact .inr (.inr (List.mem_of_ne_of_mem (List.cons_ne_nil _ _).symm h))

/-- If a part behind the first one is empty, a separator stands at the end or two of them stand side
by side. Induction along the text. -/
theorem of_nil_mem_tail_splitOn (h : [] ∈ (splitOn separator cs).tail) :
    cs.getLast? = some separator ∨ [separator, separator] <:+: cs := by
  induction cs with
  | nil => cases h
  | cons c cs ih =>
    have hlater : [] ∈ (splitOn separator cs).tail →
        (c :: cs).getLast? = some separator ∨ [separator, separator] <:+: c :: cs := by
      intro htail
      refine (ih htail).imp (fun hlast => ?_) List.infix_cons
      rw [List.getLast?_cons, hlast]
      rfl
    rw [splitOn] at h
    split at h
    · rename_i hc
      obtain rfl : c = separator := hc
      rcases of_nil_mem_splitOn h with rfl | hhead | htail
      · exact .inl rfl
      · obtain ⟨rest, rfl⟩ := List.head?_eq_some_iff.1 hhead
        exact .inr ⟨[], rest, rfl⟩
      · exact hlater htail
    · refine hlater ?_
      cases hsplit : splitOn separator cs with
      | nil => exact absurd hsplit (splitOn_ne_nil separator cs)
      | cons part parts =>
        rw [hsplit] at h
        exact h

/-- A part is empty if the text is, if a separator stands at one of its ends, or if two of them
stand side by side. -/
theorem nil_mem_splitOn_iff : [] ∈ splitOn separator cs ↔ cs = [] ∨ cs.head? = some separator
    ∨ cs.getLast? = some separator ∨ [separator, separator] <:+: cs := by
  constructor
  · intro h
    exact (of_nil_mem_splitOn h).imp_right (Or.imp_right of_nil_mem_tail_splitOn)
  · rintro (rfl | hhead | hlast | ⟨front, rest, rfl⟩)
    · exact List.mem_singleton_self _
    · obtain ⟨rest, rfl⟩ := List.head?_eq_some_iff.1 hhead
      rw [splitOn_cons_self]
      exact List.mem_cons_self
    · obtain ⟨front, rfl⟩ := List.getLast?_eq_some_iff.1 hlast
      rw [splitOn_append_cons]
      exact List.mem_append_right _ (List.mem_singleton_self _)
    · rw [List.append_assoc, List.cons_append, splitOn_append_cons, List.singleton_append,
        splitOn_cons_self]
      exact List.mem_append_right _ List.mem_cons_self

/-- The dots of a path with an empty segment: the path is empty, a dot stands at one of its ends, or
two dots stand side by side. -/
def HasEmptySegment (path : String) : Prop :=
  path = "" ∨ path.toList.head? = some '.' ∨ path.toList.getLast? = some '.'
    ∨ ['.', '.'] <:+: path.toList

/-- A path has an empty segment if the empty text is among its segments. -/
theorem hasEmptySegment_iff {path : String} : HasEmptySegment path ↔ "" ∈ segments path := by
  have hempty : path = "" ↔ path.toList = [] := String.toList_eq_nil_iff.symm
  rw [HasEmptySegment, hempty, ← nil_mem_splitOn_iff]
  exact (List.mem_map_of_injective fun _ _ => String.ofList_injective).symm

namespace Value

/-! ### Where a path leads -/

/-- A path with an empty segment leads nowhere. Induction along the segments, as the walk of
`Value.resolve` stops at an empty one at the latest. -/
theorem resolve_eq_none {p : String} (h : "" ∈ segments p) (v : Value) : v.resolve p = none := by
  rw [resolve]
  generalize segments p = path at h
  induction path generalizing v with
  | nil => cases h
  | cons key rest ih =>
    rw [List.foldlM_cons]
    rcases List.mem_cons.1 h with rfl | hrest
    · rfl
    · cases v.step? key with
      | none => rfl
      | some w => exact ih w hrest

/-- From a value that is no mapping no path leads anywhere. -/
theorem resolve_eq_none_of_not_isMapping {v : Value} (h : v.isMapping = false) (p : String) :
    v.resolve p = none := by
  by_cases hempty : "" ∈ segments p
  · exact resolve_eq_none hempty v
  · rw [resolve_eq_at? hempty, at?_eq_none h (segments_ne_nil p)]

/-- Two paths with a dot between them lead where the second one leads from what stands at the first,
since `Value.resolve` goes along the segments one by one (`segments_append`). -/
theorem resolve_append (p q : String) (v : Value) :
    v.resolve (p ++ "." ++ q) = (v.resolve p).bind (resolve q) := by
  rw [resolve, segments_append, List.foldlM_append]
  rfl

/-- Mappings of one entry each, nested around a value, the outermost key first. -/
def nest : List String → Value → Value
  | [], v => v
  | name :: rest, v => mapping [(name, nest rest v)]

/-- A value nested under names stands at the end of them (`Value.at?`). -/
theorem at?_nest (names : List String) (v : Value) : (nest names v).at? names = some v := by
  induction names with
  | nil => rfl
  | cons name rest ih =>
    rw [nest, at?, entry?, Entries.get?_cons, if_pos rfl]
    exact ih

/-- The path made of names leads to the value around which they are nested, by `segments_join` and
`at?_nest`. -/
theorem resolve_nest {names : List String} (hne : names ≠ [])
    (hnames : ∀ name ∈ names, name ≠ "" ∧ '.' ∉ name.toList) (v : Value) :
    (nest names v).resolve (join "." names) = some v := by
  have hsegments : segments (join "." names) = names :=
    segments_join hne fun name hname => (hnames name hname).2
  rw [resolve_eq_at?, hsegments, at?_nest]
  rw [hsegments]
  exact fun hempty => (hnames "" hempty).1 rfl

end Value

/-! ### Where a joined path leads -/

/-- **Paths compose.** A dot between two paths: the second one leads on from the mapping at the
first, and where no mapping stands the two lead nowhere. The path made of names that are neither
empty nor have a dot leads to the value around which they are nested (`nest`); no names at all make
up the empty path, which leads nowhere. The paths that lead nowhere in any configuration are those
with an empty segment (`HasEmptySegment`). -/
theorem resolve_composes :
    (∀ (p q : String) (c : Value), c.resolve (p ++ "." ++ q)
        = match c.resolve p with
          | some (.mapping entries) => (Value.mapping entries).resolve q
          | _ => none)
      ∧ (∀ (names : List String) (v : Value), (∀ name ∈ names, name ≠ "" ∧ '.' ∉ name.toList) →
        (Value.nest names v).resolve (join "." names) = if names = [] then none else some v)
      ∧ ∀ path, HasEmptySegment path ↔ ∀ c : Value, c.resolve path = none := by
  refine ⟨fun p q c => ?_, fun names v hnames => ?_, fun path => ?_⟩
  · rw [Value.resolve_append]
    cases hfirst : c.resolve p with
    | none => rfl
    | some v =>
      cases v with
      | mapping entries => rfl
      | _ => exact Value.resolve_eq_none_of_not_isMapping rfl q
  · split
    · rename_i hnil
      subst hnil
      exact Value.resolve_eq_none (hasEmptySegment_iff.1 (.inl rfl)) v
    · rename_i hne
      exact Value.resolve_nest hne hnames v
  · rw [hasEmptySegment_iff]
    refine ⟨Value.resolve_eq_none, fun hnone => ?_⟩
    -- Without an empty segment the path would lead through mappings nested along it.
    by_contra hempty
    have hsome := Value.at?_nest (segments path) .null
    rw [← Value.resolve_eq_at? hempty, hnone] at hsome
    cases hsome

/-- A mapping with an empty key and a key with a dot, neither of which a path leads to; and a path
through mappings of one entry each. -/
theorem resolve_composes_unreached :
    let c := Value.mapping [("a", .mapping [("", .mapping [("b", .null)]), ("b.c", .null),
      ("d", .bool true)])]
    c.resolve "a.d" = some (.bool true) ∧ c.resolve "a.b.c" = none ∧ c.resolve "a..b" = none
      ∧ (∀ name ∈ ["x", "y z"], name ≠ "" ∧ '.' ∉ name.toList)
      ∧ (Value.nest ["x", "y z"] (.bool true)).resolve "x.y z" = some (.bool true) := by
  intro c
  obtain ⟨hcomposed, hnested, hnowhere⟩ := resolve_composes
  have hdots : HasEmptySegment "a..b" := .inr (.inr (.inr ⟨['a'], ['b'], rfl⟩))
  have hnames : ∀ name ∈ ["x", "y z"], name ≠ "" ∧ '.' ∉ name.toList := by decide
  exact ⟨(hcomposed "a" "d" c).trans rfl, (hcomposed "a.b" "c" c).trans rfl,
    (hnowhere "a..b").1 hdots c, hnames, (hnested ["x", "y z"] (.bool true) hnames).trans rfl⟩

end Templating
