import Mathlib.Data.List.Basic
import Templating.Cache.Key
import Templating.Proofs.Value.JsonText
import Templating.Proofs.Value.Rearrangement

/-!
# What a cache key tells

The bytes of a key are the template, a zero byte and the canonical JSON of the configuration. JSON
is written in printable ASCII, so the last zero byte is the one in between, whatever characters
the template has. So the bytes tell the template and the canonical form of the configuration, that
is, the configuration up to the order of entries.

## Main results

* `Json.isPrintable_of_mem_compactChars`: JSON is written in printable ASCII.
* `utf8Bytes_injective`: different texts have different bytes.
* `keyBytes_eq_iff`: the bytes of a key tell the template and the canonical configuration.
* `keyBytes_eq_iff_rearranges`: they tell the configuration up to the order of entries.
-/

namespace Templating

open Templating.Text

namespace Json

/-! ### Printable characters -/

/-- Whether a character is printable ASCII, which is all that JSON texts of values have. -/
def IsPrintable (c : Char) : Prop :=
  0x20 ≤ c.toNat ∧ c.toNat ≤ 0x7E

instance (c : Char) : Decidable (IsPrintable c) :=
  inferInstanceAs (Decidable (_ ∧ _))

theorem isPrintable_hexDigit : ∀ n < 16, IsPrintable (hexDigit n) := by
  decide

/-- An escaped code unit is written with printable characters. -/
theorem isPrintable_of_mem_unitEscape (n : Nat) : ∀ c ∈ unitEscape n, IsPrintable c := by
  rw [unitEscape, List.forall_mem_cons, List.forall_mem_cons]
  refine ⟨by decide, by decide, fun c hc => ?_⟩
  obtain ⟨place, -, rfl⟩ := List.mem_map.1 (List.mem_reverse.1 hc)
  exact isPrintable_hexDigit _ (Nat.mod_lt _ (by omega))

/-- `escaped` writes a character with printable ones: it is escaped, or printable itself. -/
theorem isPrintable_of_mem_escaped (c : Char) : ∀ c' ∈ escaped c, IsPrintable c' := by
  rw [escaped]
  split_ifs with hquote hescape hfeed hreturn htab hback hform hprintable hbasic
  · exact List.all_iff_forall_prop.1 rfl
  · exact List.all_iff_forall_prop.1 rfl
  · exact List.all_iff_forall_prop.1 rfl
  · exact List.all_iff_forall_prop.1 rfl
  · exact List.all_iff_forall_prop.1 rfl
  · exact List.all_iff_forall_prop.1 rfl
  · exact List.all_iff_forall_prop.1 rfl
  · rw [List.forall_mem_singleton]
    exact hprintable
  · exact isPrintable_of_mem_unitEscape _
  · rw [List.forall_mem_append]
    exact ⟨isPrintable_of_mem_unitEscape _, isPrintable_of_mem_unitEscape _⟩

/-- A quoted text is written with printable characters. -/
theorem isPrintable_of_mem_quoted (s : String) : ∀ c ∈ quoted s, IsPrintable c := by
  rw [quoted, List.forall_mem_cons, List.forall_mem_append]
  refine ⟨by decide, fun c hc => ?_, List.all_iff_forall_prop.1 rfl⟩
  obtain ⟨c', -, hc'⟩ := List.mem_flatMap.1 hc
  exact isPrintable_of_mem_escaped c' c hc'

/-- The texts of numbers have printable characters only. -/
theorem isPrintable_of_isNumberChar {c : Char} (h : IsNumberChar c) : IsPrintable c := by
  rcases h with (hdigit | rfl | rfl | rfl | rfl) | hletter
  · obtain ⟨hlower, hupper⟩ := Char.isDigit_iff_toNat.1 hdigit
    exact ⟨Nat.le_trans (by decide) hlower, Nat.le_trans hupper (by decide)⟩
  · decide
  · decide
  · decide
  · decide
  · have hletters : ∀ c ∈ ['N', 'a', 'I', 'n', 'f', 'i', 't', 'y'], IsPrintable c :=
      List.all_iff_forall_prop.1 rfl
    exact hletters c hletter

mutual

/-- **JSON is written in printable ASCII.** Mutual induction on the value. -/
theorem isPrintable_of_mem_compactChars : ∀ v : Value, ∀ c ∈ compactChars v, IsPrintable c
  | .null => List.all_iff_forall_prop.1 rfl
  | .bool true => List.all_iff_forall_prop.1 rfl
  | .bool false => List.all_iff_forall_prop.1 rfl
  | .number n => fun c hc => isPrintable_of_isNumberChar (isNumberChar_of_mem_numberText n c hc)
  | .text s => isPrintable_of_mem_quoted s
  | .list items => by
    rw [compactChars, List.forall_mem_cons, List.forall_mem_append]
    exact ⟨by decide, isPrintable_of_mem_compactItems items, List.all_iff_forall_prop.1 rfl⟩
  | .mapping entries => by
    rw [compactChars, List.forall_mem_cons, List.forall_mem_append]
    exact ⟨by decide, isPrintable_of_mem_compactEntries entries, List.all_iff_forall_prop.1 rfl⟩

/-- The part of `isPrintable_of_mem_compactChars` for the items of a list. -/
theorem isPrintable_of_mem_compactItems : ∀ items : List Value,
    ∀ c ∈ compactItems items, IsPrintable c
  | [] => by simp [compactItems]
  | [v] => isPrintable_of_mem_compactChars v
  | v :: w :: rest => by
    rw [compactItems, List.forall_mem_append, List.forall_mem_cons]
    · exact ⟨isPrintable_of_mem_compactChars v, by decide,
        isPrintable_of_mem_compactItems (w :: rest)⟩
    · simp

/-- The part of `isPrintable_of_mem_compactChars` for the entries of a mapping. -/
theorem isPrintable_of_mem_compactEntries : ∀ entries : List (String × Value),
    ∀ c ∈ compactEntries entries, IsPrintable c
  | [] => by simp [compactEntries]
  | [(key, v)] => by
    rw [compactEntries, List.forall_mem_append, List.forall_mem_cons]
    exact ⟨isPrintable_of_mem_quoted key, by decide, isPrintable_of_mem_compactChars v⟩
  | (key, v) :: entry :: rest => by
    rw [compactEntries, List.forall_mem_append, List.forall_mem_cons, List.forall_mem_append,
      List.forall_mem_cons]
    · exact ⟨isPrintable_of_mem_quoted key, by decide, isPrintable_of_mem_compactChars v,
        by decide, isPrintable_of_mem_compactEntries (entry :: rest)⟩
    · simp

end

end Json

/-! ### Bytes -/

/-- Different texts have different bytes: `utf8Bytes` is the encoding of the library, which can be
undone. -/
theorem utf8Bytes_injective : Function.Injective utf8Bytes := by
  intro cs ds h
  have hencode : cs.utf8Encode = ds.utf8Encode := congrArg List.toByteArray h
  rw [← String.toByteArray_ofList, ← String.toByteArray_ofList] at hencode
  exact String.ofList_injective (String.toByteArray_inj.1 hencode)

/-- Printable characters have no null byte, so the byte that separates the two parts of a key does
not stand in the second one. -/
theorem zero_notMem_utf8Bytes {cs : List Char} (h : ∀ c ∈ cs, Json.IsPrintable c) :
    0 ∉ utf8Bytes cs := by
  intro hzero
  obtain ⟨c, hc, hbyte⟩ := List.mem_flatMap.1 hzero
  obtain ⟨hlower, hupper⟩ := h c hc
  have hsingle : String.utf8EncodeChar c = [UInt8.ofNat c.toNat] :=
    if_pos (Nat.le_trans hupper (by omega))
  rw [hsingle, List.mem_singleton] at hbyte
  have hvalue := congrArg UInt8.toNat hbyte
  rw [UInt8.toNat_ofNat'] at hvalue
  change 0 = _ at hvalue
  omega

/-- A separator that does not occur after it can be found from the end. -/
theorem append_cons_inj {α : Type} {a : α} {xs xs' ys ys' : List α} (hys : a ∉ ys)
    (hys' : a ∉ ys') (h : xs ++ a :: ys = xs' ++ a :: ys') : xs = xs' ∧ ys = ys' := by
  rcases List.append_eq_append_iff.1 h with ⟨between, rfl, hafter⟩ | ⟨between, rfl, hafter⟩
  · rcases between with - | ⟨b, between⟩
    · exact ⟨(List.append_nil xs).symm, (List.cons.inj hafter).2⟩
    · obtain ⟨-, rfl⟩ := List.cons.inj hafter
      exact absurd (List.mem_append_right between List.mem_cons_self) hys
  · rcases between with - | ⟨b, between⟩
    · exact ⟨List.append_nil xs', (List.cons.inj hafter).2.symm⟩
    · obtain ⟨-, rfl⟩ := List.cons.inj hafter
      exact absurd (List.mem_append_right between List.mem_cons_self) hys'

/-- The bytes of a key tell the template and the canonical configuration. The last null byte
separates the two, by `append_cons_inj`, and both parts can be read back. -/
theorem keyBytes_eq_iff {template template' : String} {configuration configuration' : Value} :
    keyBytes template configuration = keyBytes template' configuration'
      ↔ template = template' ∧ configuration.canonical = configuration'.canonical := by
  have hzero : ∀ v, 0 ∉ utf8Bytes (Json.compactChars v) :=
    fun v => zero_notMem_utf8Bytes (Json.isPrintable_of_mem_compactChars v)
  constructor
  · intro h
    obtain ⟨htemplate, hjson⟩ := append_cons_inj (hzero _) (hzero _) h
    exact ⟨String.toList_injective (utf8Bytes_injective htemplate),
      Json.compactChars_injective (utf8Bytes_injective hjson)⟩
  · rintro ⟨rfl, hcanonical⟩
    rw [keyBytes, keyBytes, hcanonical]

/-- **The bytes of a key tell the template, whatever characters it has, and the configuration up to
the order of entries**, where no mapping in the configuration has two entries with one key. -/
theorem keyBytes_eq_iff_rearranges {template template' : String}
    {configuration configuration' : Value} (hunique : configuration.hasUniqueKeys = true) :
    keyBytes template configuration = keyBytes template' configuration'
      ↔ template = template' ∧ configuration.Rearranges configuration' := by
  have hcanonical : configuration.canonical = configuration'.canonical
      ↔ configuration.Rearranges configuration' :=
    ⟨Value.rearranges_of_canonical_eq, Value.canonical_eq_of_rearranges hunique⟩
  rw [keyBytes_eq_iff, hcanonical]

/-- With null characters in the template, a nested mapping in another order has the same bytes; a
truth value in place of a number has others, and so has a null character less. -/
theorem keyBytes_eq_iff_rearranges_null_characters :
    (Value.mapping [("a", .mapping [("x", .int 1), ("y", .null)])]).hasUniqueKeys = true
    ∧ keyBytes "\x00\x7b\x00" (.mapping [("a", .mapping [("x", .int 1), ("y", .null)])])
      = keyBytes "\x00\x7b\x00" (.mapping [("a", .mapping [("y", .null), ("x", .int 1)])])
    ∧ keyBytes "\x00\x7b\x00" (.mapping [("x", .int 1)])
      ≠ keyBytes "\x00\x7b\x00" (.mapping [("x", .bool true)])
    ∧ keyBytes "\x00\x7b\x00" (.mapping [("x", .int 1)])
      ≠ keyBytes "\x00\x7b" (.mapping [("x", .int 1)]) := by
  refine ⟨by decide, (keyBytes_eq_iff_rearranges (by decide)).2 ⟨rfl, ?_⟩, fun h => ?_,
    fun h => ?_⟩
  · have hinner : Value.RearrangesEntries [("x", .int 1), ("y", .null)]
        [("x", .int 1), ("y", .null)] := .cons "x" (.number (.int 1)) (.cons "y" .null .nil)
    exact .mapping (.cons "a" (.mapping hinner (.swap _ _ _)) .nil) (.refl _)
  · obtain ⟨-, hsame⟩ := (keyBytes_eq_iff_rearranges (by decide)).1 h
    cases hsame with
    | mapping hentries hperm =>
      cases hentries with
      | cons _ hvalue hrest =>
        cases hrest
        cases hvalue
        cases List.perm_singleton.1 hperm
  · exact absurd ((keyBytes_eq_iff_rearranges (by decide)).1 h).1 (by decide)

end Templating
