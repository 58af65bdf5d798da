import Templating.Proofs.Template.Partition

/-!
# Tokens of a wrapped text

A text is wrapped by a tag before it and a closing tag behind it. Its own tokens stay as they are:
a tag at the front ends where it ends, whatever follows, and a closing tag at the very end
completes nothing that is unfinished before it. For what is delimited ends in a closing brace, the
closing tag has only one, its last character, and a token that ended there would hold the opening
of the closing tag.

## Main definitions

* `Token.moved`: a token some places further on.
* `closingTag`: the tag that closes a span, as it is written.

## Main results

* `delimited?_append_closingTag`: a closing tag at the end completes no token.
* `Cursor.remaining_append_closingTag`: it is one more token.
* `tokenize_wrapped`: the tokens of a wrapped text.
-/

namespace Templating.Template

open Templating.Text

/-! ### Tokens further on -/

/-- The token some places further on. -/
def Token.moved (d : Nat) (t : Token) : Token :=
  ⟨t.shape, d + t.start⟩

namespace Cursor

/-- A text has the same tokens wherever it begins. Induction on the length of the text, as
`nextShape?` does not look at the position. -/
theorem remaining_moved (d position : Nat) (ahead : List Char) :
    (mk (d + position) ahead).remaining = (mk position ahead).remaining.map (Token.moved d) := by
  induction hn : ahead.length using Nat.strong_induction_on generalizing position ahead with
  | _ n ih =>
    subst hn
    cases hshape : nextShape? ahead with
    | none =>
      have hnone : ∀ p, (mk p ahead).next? = none := fun p => by rw [next?, hshape]
      rw [remaining_of_none (hnone _), remaining_of_none (hnone _), List.map_nil]
    | some found =>
      obtain ⟨shape, rest⟩ := found
      have hnext : ∀ p, (mk p ahead).next? = some (⟨shape, p⟩, ⟨p + shape.source.length, rest⟩) :=
        fun p => by rw [next?, hshape]
      rw [remaining_of_some (hnext _), remaining_of_some (hnext _), List.map_cons,
        ← ih _ (length_lt_of_nextShape? hshape) _ _ rfl, Nat.add_assoc]
      rfl

end Cursor

/-! ### A closing tag at the end -/

/-- The tag that closes a span, as it is written. -/
def closingTag : Shape :=
  .tag [' ', 'e', 'n', 'd', 'i', 'f', ' ']

/-- The closing tag may stand between the delimiters of a tag. -/
theorem fits_closingTag : closingTag.Fits := by
  constructor <;> decide

/-- What is delimited ends in a closing brace. -/
theorem Shape.Fits.exists_source_eq {shape : Shape} (h : shape.Fits) :
    ∃ front, shape.source = front ++ ['}'] := by
  cases shape with
  | text run => exact absurd h id
  | placeholder inner => exact ⟨'{' :: '{' :: (inner ++ ['}']), by simp [Shape.source]⟩
  | tag inner => exact ⟨'{' :: '%' :: (inner ++ ['%']), by simp [Shape.source]⟩

/-- The first part of the closing tag that ends in a closing brace is the whole tag. So nothing
delimited ends inside it. -/
theorem eq_nil_of_closingTag {front rest : List Char}
    (h : closingTag.source = (front ++ ['}']) ++ rest) : rest = [] := by
  by_contra hne
  obtain ⟨rest', c, rfl⟩ := (List.eq_nil_or_concat' rest).resolve_left hne
  have hclosing : closingTag.source = ['{', '%', ' ', 'e', 'n', 'd', 'i', 'f', ' ', '%'] ++ ['}'] :=
    rfl
  rw [hclosing, ← List.append_assoc] at h
  have hmem : '}' ∈ ['{', '%', ' ', 'e', 'n', 'd', 'i', 'f', ' ', '%'] := by
    rw [(List.append_inj' h rfl).1]
    simp
  exact absurd hmem (by decide)

/-- No longer token ends in a closing tag: a placeholder ends in two braces, and a tag would have
the opening delimiter inside it. -/
theorem Shape.Fits.source_ne {shape : Shape} (h : shape.Fits) {cs : List Char} (hne : cs ≠ []) :
    shape.source ≠ cs ++ closingTag.source := by
  intro hsource
  have hclosing : cs ++ closingTag.source
      = (cs ++ ['{', '%', ' ', 'e', 'n', 'd', 'i', 'f', ' ']) ++ ['%', '}'] := by
    simp [closingTag, Shape.source]
  rw [hclosing] at hsource
  cases shape with
  | text run => exact h
  | placeholder inner =>
    have hends : ('{' :: '{' :: inner) ++ ['}', '}'] = _ ++ ['%', '}'] := hsource
    cases (List.append_inj' hends rfl).2
  | tag inner =>
    have hends : ('{' :: '%' :: inner) ++ ['%', '}'] = _ ++ ['%', '}'] := hsource
    have hfront := (List.append_inj' hends rfl).1
    rcases cs with - | ⟨c, - | ⟨d, cs⟩⟩
    · exact hne rfl
    · cases hfront
    · obtain ⟨-, rfl⟩ : '%' = d ∧ inner = cs ++ ['{', '%', ' ', 'e', 'n', 'd', 'i', 'f', ' '] := by
        simpa using (List.cons.inj hfront).2
      exact h.1 ⟨cs, [' ', 'e', 'n', 'd', 'i', 'f', ' '], by simp⟩

/-- A closing tag at the very end completes no token that begins before it: it would end with the
closing tag (`Shape.Fits.source_ne`) or inside it (`eq_nil_of_closingTag`). -/
theorem delimited?_append_closingTag {cs : List Char} (hne : cs ≠ [])
    (h : delimited? cs = none) : delimited? (cs ++ closingTag.source) = none := by
  rw [Option.eq_none_iff_forall_ne_some]
  rintro ⟨shape, rest⟩ hfound
  obtain ⟨happ, hfits⟩ := delimited?_eq_some_iff.1 hfound
  have hinside : ∀ after, cs ≠ shape.source ++ after := fun after hcs => by
    cases h.symm.trans (delimited?_eq_some_iff.2 ⟨hcs, hfits⟩)
  rcases List.append_eq_append_iff.1 happ with ⟨here, hsource, hclosing⟩ | ⟨after, hcs, -⟩
  · rcases List.eq_nil_or_concat' here with rfl | ⟨front, c, rfl⟩
    · exact hinside [] (by rw [hsource, List.append_nil, List.append_nil])
    · -- The token ends inside the closing tag, so with its last character.
      obtain ⟨front', hend⟩ := hfits.exists_source_eq
      obtain rfl : c = '}' := by
        rw [hend, ← List.append_assoc] at hsource
        exact (List.singleton_inj.1 (List.append_inj' hsource rfl).2).symm
      obtain rfl := eq_nil_of_closingTag hclosing
      rw [List.append_nil] at hclosing
      rw [← hclosing] at hsource
      exact hfits.source_ne hne hsource
  · exact hinside after hcs

/-- A closing tag at the very end does not change the next token either. A literal text ends where
it ended, by `delimited?_append_closingTag` at each of its characters. -/
theorem nextShape?_append_closingTag {cs rest : List Char} {shape : Shape}
    (h : nextShape? cs = some (shape, rest)) :
    nextShape? (cs ++ closingTag.source) = some (shape, rest ++ closingTag.source) := by
  rcases delimited?_or_text_of_nextShape? h with hfound | ⟨run, rfl⟩
  · exact nextShape?_of_delimited? (delimited?_append hfound _)
  · obtain ⟨hne, hrun⟩ := nextShape?_eq_text_iff.1 h
    obtain ⟨rfl, hnone, hend⟩ := literalRun_eq_iff.1 hrun
    refine nextShape?_eq_text_iff.2
      ⟨hne, literalRun_eq_iff.2 ⟨List.append_assoc _ _ _, fun i hi => ?_, .inr ?_⟩⟩
    · have hi' : i < (run ++ rest).length := by
        rw [List.length_append]
        exact Nat.lt_add_right _ hi
      rw [List.drop_append_of_le_length (Nat.le_of_lt hi')]
      refine delimited?_append_closingTag ?_ (hnone i hi)
      exact List.ne_nil_of_length_pos (by rw [List.length_drop]; omega)
    · rcases hend with rfl | hsome
      · decide
      · obtain ⟨found, hfound⟩ := Option.isSome_iff_exists.1 hsome
        rw [delimited?_append hfound]
        rfl

namespace Cursor

/-- A closing tag at the end of a text is one more token. Induction on the length of the text with
`nextShape?_append_closingTag`. -/
theorem remaining_append_closingTag (position : Nat) (cs : List Char) :
    (mk position (cs ++ closingTag.source)).remaining
      = (mk position cs).remaining ++ [⟨closingTag, position + cs.length⟩] := by
  induction hn : cs.length using Nat.strong_induction_on generalizing position cs with
  | _ n ih =>
    subst hn
    cases hshape : nextShape? cs with
    | none =>
      have hnone : (mk position cs).next? = none := by rw [next?, hshape]
      obtain rfl : cs = [] := next?_eq_none_iff.1 hnone
      have hfound : delimited? closingTag.source = some (closingTag, []) :=
        delimited?_eq_some_iff.2 ⟨(List.append_nil _).symm, fits_closingTag⟩
      have hnext : (mk position closingTag.source).next?
          = some (⟨closingTag, position⟩, ⟨position + closingTag.source.length, []⟩) := by
        rw [next?, nextShape?_of_delimited? hfound]
      rw [List.nil_append, remaining_of_some hnext, remaining_of_none hnone,
        remaining_of_none (next?_eq_none_iff.2 rfl)]
      rfl
    | some found =>
      obtain ⟨shape, rest⟩ := found
      have hlength := congrArg List.length (source_nextShape? hshape)
      rw [List.length_append] at hlength
      have hnext : (mk position cs).next?
          = some (⟨shape, position⟩, ⟨position + shape.source.length, rest⟩) := by
        rw [next?, hshape]
      have hnext' : (mk position (cs ++ closingTag.source)).next? = some (⟨shape, position⟩,
          ⟨position + shape.source.length, rest ++ closingTag.source⟩) := by
        rw [next?, nextShape?_append_closingTag hshape]
      rw [remaining_of_some hnext, remaining_of_some hnext',
        ih _ (length_lt_of_nextShape? hshape) _ _ rfl, ← hlength, Nat.add_assoc]
      rfl

end Cursor

/-- **The tokens of a text between a delimited token and a closing tag** are that token, the tokens
of the text moved behind it (`remaining_moved`), and the closing tag
(`remaining_append_closingTag`). -/
theorem tokenize_wrapped {opening : Shape} (h : opening.Fits) (cs : List Char) :
    tokenize (String.ofList (opening.source ++ (cs ++ closingTag.source)))
      = ⟨opening, 0⟩ :: ((tokenize (String.ofList cs)).map (Token.moved opening.source.length)
        ++ [⟨closingTag, opening.source.length + cs.length⟩]) := by
  have hnext : (Cursor.mk 0 (opening.source ++ (cs ++ closingTag.source))).next?
      = some (⟨opening, 0⟩, ⟨0 + opening.source.length, cs ++ closingTag.source⟩) := by
    rw [Cursor.next?, nextShape?_of_delimited? (delimited?_eq_some_iff.2 ⟨rfl, h⟩)]
  have hmoved := Cursor.remaining_moved opening.source.length 0 cs
  rw [tokenize, tokenize, Cursor.ofText, Cursor.ofText, String.toList_ofList, String.toList_ofList,
    Cursor.remaining_of_some hnext, Nat.zero_add, Cursor.remaining_append_closingTag]
  rw [Nat.add_zero] at hmoved
  rw [hmoved]

end Templating.Template
