import ContentFilter.Proofs.Condition.Fields
import ContentFilter.Proofs.Sql.Quotation
import ContentFilter.Proofs.Token.Placement
/-!
# The grammar of JSON path texts

The texts of this library that PostgreSQL reads as JSON paths: a path, a comparison of a path with a
literal, and a path with a filter that matches a regular expression (`JsonPath.Sentence`).  Which
numbers there are is left open by a parameter.  PostgreSQL wants no superfluous zeros in front of a
number (`JsonPath.Numeral`), a filter allows them (`Lexeme.Number`), and the two grammars differ in
nothing else (`JsonPath.numeral_iff`).

The path of a field is a path of the grammar (`JsonPath.isPath_ofField`).  A sentence that ends with
a space and a number is a comparison with this very number (`JsonPath.numeral_of_sentence`), because
a quoted key, the only part of a path that can have a space in it, ends with a quote.
-/

namespace ContentFilter

namespace JsonPath

open Lexeme (Digits Unsigned Number isNumberChar)

/-! ## Numbers -/

/-- A whole number of which zero is the only one that begins with a zero. -/
def Whole (ds : List Char) : Prop := ds = ['0'] ∨ Digits ds ∧ ds.head? ≠ some '0'

/-- A whole number, perhaps with a point and more digits behind it. -/
inductive UnsignedNumeral : List Char → Prop
  | whole {ds : List Char} : Whole ds → UnsignedNumeral ds
  | fraction {ds es : List Char} : Whole ds → Digits es → UnsignedNumeral (ds ++ '.' :: es)

/-- A number as PostgreSQL reads it in a JSON path. -/
inductive Numeral : List Char → Prop
  | positive {w : List Char} : UnsignedNumeral w → Numeral w
  | negative {w : List Char} : UnsignedNumeral w → Numeral ('-' :: w)

/-- The text begins with a zero in front of another digit. -/
def ZeroFirst (w : List Char) : Prop := ∃ d r, w = '0' :: d :: r ∧ d.isDigit = true

/-- The number has a superfluous zero in front. -/
def Padded (w : List Char) : Prop := ZeroFirst w ∨ ∃ v, w = '-' :: v ∧ ZeroFirst v

lemma digits_of_whole {ds : List Char} (h : Whole ds) : Digits ds := by
  rcases h with rfl | ⟨hds, -⟩
  · exact ⟨by simp, by simp⟩
  · exact hds

/-- Digits are a whole number unless a zero is in front of another digit. -/
lemma whole_iff {ds r : List Char} (h : Digits ds) (hr : ∀ d ∈ r.head?, d.isDigit = false) :
    Whole ds ↔ ¬ZeroFirst (ds ++ r) := by
  match ds, h with
  | [], h => exact absurd rfl h.1
  | [d], h =>
    have hzero : ¬ZeroFirst ([d] ++ r) := by
      rintro ⟨e, s, heq, he⟩
      obtain ⟨-, rfl⟩ := List.cons.inj heq
      rw [hr e rfl] at he
      cases he
    refine iff_of_true ?_ hzero
    by_cases hd : d = '0'
    · exact .inl (by rw [hd])
    · exact .inr ⟨h, by simpa using hd⟩
  | d :: e :: ds, h =>
    have he : e.isDigit = true := h.2 e (by simp)
    have hzero : ZeroFirst (d :: e :: ds ++ r) ↔ d = '0' := by
      constructor
      · rintro ⟨_, _, heq, -⟩
        exact (List.cons.inj heq).1
      · rintro rfl
        exact ⟨e, ds ++ r, rfl, he⟩
    rw [hzero]
    simp [Whole, h]

lemma unsignedNumeral_iff {w : List Char} (h : Unsigned w) : UnsignedNumeral w ↔ ¬ZeroFirst w := by
  constructor
  · rintro (hds | ⟨hds, hes⟩)
    · simpa using (whole_iff (r := []) (digits_of_whole hds) (by simp)).1 hds
    · exact (whole_iff (digits_of_whole hds) (by simp)).1 hds
  · intro hzero
    cases h with
    | @whole ds hds => exact .whole ((whole_iff (r := []) hds (by simp)).2 (by simpa using hzero))
    | fraction hds hes => exact .fraction ((whole_iff hds (by simp)).2 hzero) hes

lemma unsigned_of_unsignedNumeral {w : List Char} (h : UnsignedNumeral w) : Unsigned w := by
  cases h with
  | whole hds => exact .whole (digits_of_whole hds)
  | fraction hds hes => exact .fraction (digits_of_whole hds) hes

lemma number_of_numeral {w : List Char} (h : Numeral w) : Number w := by
  cases h with
  | positive h => exact .positive (unsigned_of_unsignedNumeral h)
  | negative h => exact .negative (unsigned_of_unsignedNumeral h)

/-- A number of a filter is one of PostgreSQL exactly if it has no superfluous zero in front. -/
theorem numeral_iff {w : List Char} (h : Number w) : Numeral w ↔ ¬Padded w := by
  cases h with
  | positive hw =>
    have hsign : ∀ v, w ≠ '-' :: v := by
      rintro v rfl
      exact Lexeme.not_unsigned_minus v hw
    have hnumeral : Numeral w ↔ UnsignedNumeral w := by
      refine ⟨fun hn => ?_, .positive⟩
      cases hn with
      | positive hn => exact hn
      | negative _ => exact absurd rfl (hsign _)
    have hpadded : Padded w ↔ ZeroFirst w :=
      ⟨fun hp => hp.resolve_right fun ⟨v, hv, _⟩ => hsign v hv, .inl⟩
    rw [hnumeral, hpadded, unsignedNumeral_iff hw]
  | @negative w hw =>
    have hnumeral : Numeral ('-' :: w) ↔ UnsignedNumeral w := by
      refine ⟨fun hn => ?_, .negative⟩
      cases hn with
      | positive hn =>
        exact absurd (unsigned_of_unsignedNumeral hn) (Lexeme.not_unsigned_minus w)
      | negative hn => exact hn
    have hpadded : Padded ('-' :: w) ↔ ZeroFirst w := by
      constructor
      · rintro (⟨_, _, heq, -⟩ | ⟨v, hv, hz⟩)
        · exact absurd (List.cons.inj heq).1 (by decide)
        · rwa [(List.cons.inj hv).2]
      · exact fun hz => .inr ⟨w, rfl, hz⟩
    rw [hnumeral, hpadded, unsignedNumeral_iff hw]

/-! ## Paths and sentences -/

/-- A string in double quotes. -/
def IsString (w : List Char) : Prop := ∃ s, readString w = some (s, [])

/-- A key of a path: a plain name, or a string. -/
inductive IsKey : List Char → Prop
  | name {w : List Char} : Text.isPlainName w = true → IsKey w
  | string {w : List Char} : IsString w → IsKey w

/-- What a path may end with behind its keys. -/
def endings : List String := ["", ".*", "[*]"]

/-- What follows the dollar sign of a path: one or more keys behind dots, and perhaps an ending. -/
inductive IsKeys : List Char → Prop
  | last {k : List Char} {ending : String} :
      IsKey k → ending ∈ endings → IsKeys ('.' :: (k ++ ending.toList))
  | cons {k r : List Char} : IsKey k → IsKeys r → IsKeys ('.' :: (k ++ r))

/-- A path. -/
def IsPath (w : List Char) : Prop := ∃ r, IsKeys r ∧ w = '$' :: r

/-- A literal of a comparison, with numbers of the given form. -/
inductive IsLiteral (number : List Char → Prop) : List Char → Prop
  | string {w : List Char} : IsString w → IsLiteral number w
  | boolean {w : String} : w ∈ ["true", "false"] → IsLiteral number w.toList
  | number {w : List Char} : number w → IsLiteral number w

/-- The comparisons of JSON paths. -/
def comparisons : List String := ["==", "!=", "<", "<=", ">", ">="]

/-- The texts of JSON paths, with numbers of the given form: a path, a comparison of a path with a
literal, and a path whose items match a regular expression, perhaps regardless of case. -/
inductive Sentence (number : List Char → Prop) : List Char → Prop
  | path {p : List Char} : IsPath p → Sentence number p
  | comparison {p l : List Char} {op : String} :
      IsPath p → op ∈ comparisons → IsLiteral number l →
      Sentence number (p ++ ' ' :: (op.toList ++ ' ' :: l))
  | matching {p s : List Char} {flag : String} :
      IsPath p → IsString s → flag ∈ ["", " flag \"i\""] →
      Sentence number (p ++ " ? (@ like_regex ".toList ++ s ++ flag.toList ++ [')'])

/-! ## The paths of fields -/

lemma isString_quote (s : String) : IsString (quote s).toList :=
  ⟨s.toList, by simpa using readString_quote s []⟩

/-- Without quotes and backslashes nothing needs to be escaped. -/
lemma stringBody_plain {cs : List Char} (h : ∀ c ∈ cs, c ≠ '"' ∧ c ≠ '\\') (r : List Char) :
    stringBody (cs ++ '"' :: r) = some (cs, r) := by
  induction cs with
  | nil => rfl
  | cons c cs ih =>
    obtain ⟨⟨hquote, hbackslash⟩, hcs⟩ := List.forall_mem_cons.1 h
    rw [List.cons_append, stringBody, ih hcs]
    · rfl
    · exact hquote
    · exact fun hc => absurd hc hbackslash
    · exact fun _ _ hc => absurd hc hbackslash

/-- No character of a name or a segment needs to be escaped. -/
lemma ne_quote_of_isSegment {cs : List Char} (h : FieldPath.isSegment cs = true) :
    ∀ c ∈ cs, c ≠ '"' ∧ c ≠ '\\' := by
  intro c hc
  have hname : Text.isNameChar c = true := FieldPath.isNameChar_of_isSegment h c hc
  constructor <;>
    · rintro rfl
      revert hname
      decide

/-- A key in double quotes. -/
lemma toList_quoted (k : String) : ("\"" ++ k ++ "\"").toList = '"' :: (k.toList ++ ['"']) := by
  simp

/-- A name or a segment of a field is written as a key. -/
lemma isKey_key {k : String} (h : FieldPath.isSegment k.toList = true) : IsKey (key k).toList := by
  unfold key
  split
  · next hplain => exact .name hplain
  · refine .string ⟨k.toList, ?_⟩
    rw [toList_quoted, readString, stringBody_plain (ne_quote_of_isSegment h)]

lemma toList_along (keys : List String) :
    (along keys).toList = '$' :: keys.flatMap fun k => '.' :: (key k).toList := by
  have hfold : ∀ (path : String), (keys.foldl (fun path k => path ++ "." ++ key k) path).toList =
      path.toList ++ keys.flatMap fun k => '.' :: (key k).toList := by
    induction keys with
    | nil => simp
    | cons k keys ih =>
      intro path
      rw [List.foldl_cons, ih]
      simp
  simpa [along] using hfold "$"

/-- Keys behind dots, with an ending, are what may follow a dollar sign. -/
lemma isKeys_flatMap {keys : List String} (hkeys : ∀ k ∈ keys, FieldPath.isSegment k.toList = true)
    (hne : keys ≠ []) {ending : String} (hending : ending ∈ endings) :
    IsKeys ((keys.flatMap fun k => '.' :: (key k).toList) ++ ending.toList) := by
  induction keys with
  | nil => exact absurd rfl hne
  | cons k keys ih =>
    obtain ⟨hk, hkeys⟩ := List.forall_mem_cons.1 hkeys
    cases keys with
    | nil => simpa using IsKeys.last (isKey_key hk) hending
    | cons l keys =>
      rw [List.flatMap_cons, List.cons_append, List.cons_append, List.append_assoc]
      exact .cons (isKey_key hk) (ih hkeys (by simp))

/-- The path of a field is a path. -/
theorem isPath_ofField {f : FieldPath} (h : f.WellFormed) : IsPath (ofField f).toList := by
  have hending : wildcard f.wildcard ∈ endings := by
    cases f.wildcard with
    | none => decide
    | some w => cases w <;> decide
  refine ⟨_, isKeys_flatMap h.isSegment_keys (by simp [FieldPath.keys]) hending, ?_⟩
  rw [ofField, container, String.toList_append, toList_along, List.cons_append]

/-! ## The number of a comparison -/

lemma getLast?_of_stringBody {w : List Char} {p : List Char × List Char}
    (h : stringBody w = some p) (hp : p.2 = []) : w.getLast? = some '"' := by
  fun_induction stringBody w generalizing p with
  | case1 => cases h
  | case2 r =>
    obtain rfl := Option.some.inj h
    obtain rfl : r = [] := hp
    rfl
  | case3 => cases h
  | case4 e r ih =>
    obtain ⟨c, -, h⟩ := Option.bind_eq_some_iff.1 h
    obtain ⟨q, hq, rfl⟩ := Option.map_eq_some_iff.1 h
    have hlast := ih hq hp
    cases r with
    | nil => cases hlast
    | cons d r => rwa [List.getLast?_cons_cons, List.getLast?_cons_cons]
  | case5 c r _ _ _ ih =>
    obtain ⟨q, hq, rfl⟩ := Option.map_eq_some_iff.1 h
    have hlast := ih hq hp
    cases r with
    | nil => cases hlast
    | cons d r => rwa [List.getLast?_cons_cons]

/-- A string ends with a quote. -/
lemma IsString.getLast?_eq {w : List Char} (h : IsString w) : w.getLast? = some '"' := by
  obtain ⟨s, h⟩ := h
  unfold readString at h
  split at h
  · next r =>
    have hlast := getLast?_of_stringBody h rfl
    cases r with
    | nil => cases hlast
    | cons d r => rwa [List.getLast?_cons_cons]
  · cases h

/-- Behind a space in a key there is a quote, as only quoted keys have spaces. -/
lemma IsKey.quote_mem {a b : List Char} (h : IsKey (a ++ ' ' :: b)) : '"' ∈ b := by
  generalize hk : a ++ ' ' :: b = k at h
  cases h with
  | name hplain =>
    have hspace : ' ' ∈ k := hk ▸ by simp
    cases k with
    | nil => cases hspace
    | cons c r =>
      rw [Text.isPlainName, Bool.and_eq_true, List.all_eq_true] at hplain
      exact absurd (hplain.2 ' ' hspace) (by decide)
  | string hstring =>
    have hlast := hk ▸ hstring.getLast?_eq
    rw [List.getLast?_append, List.getLast?_cons] at hlast
    cases hb : b.getLast? with
    | none => simp [hb] at hlast
    | some d =>
      obtain rfl : d = '"' := by simpa [hb] using hlast
      exact List.mem_of_getLast? hb

/-- Behind a space in a key, or in what follows the key, there is a quote. -/
lemma quote_mem_of_key {k rest a b : List Char} (hk : IsKey k)
    (h : '.' :: (k ++ rest) = a ++ ' ' :: b) (hrest : ∀ a', rest = a' ++ ' ' :: b → '"' ∈ b) :
    '"' ∈ b := by
  cases a with
  | nil => exact absurd (List.cons.inj h).1 (by decide)
  | cons d a =>
    rcases List.append_eq_append_iff.1 (List.cons.inj h).2 with ⟨c, rfl, hc⟩ | ⟨c, rfl, hc⟩
    · exact hrest c hc
    · cases c with
      | nil => exact hrest [] hc.symm
      | cons e c =>
        obtain ⟨rfl, rfl⟩ := List.cons.inj hc
        exact List.mem_append_left _ hk.quote_mem

/-- Behind a space in the keys of a path there is a quote. -/
lemma IsKeys.quote_mem {r a b : List Char} (h : IsKeys r) (hr : r = a ++ ' ' :: b) :
    '"' ∈ b := by
  induction h generalizing a with
  | @last k ending hk hending =>
    refine quote_mem_of_key hk hr fun a' ha' => ?_
    have hspace : ' ' ∉ ending.toList :=
      (by decide : ∀ e ∈ endings, ' ' ∉ e.toList) ending hending
    exact absurd (ha' ▸ by simp) hspace
  | cons hk _ ih => exact quote_mem_of_key hk hr fun _ ha' => ih ha'

/-- Behind a space in a path there is a quote. -/
lemma IsPath.quote_mem {p a b : List Char} (h : IsPath p) (hp : p = a ++ ' ' :: b) : '"' ∈ b := by
  obtain ⟨r, hr, rfl⟩ := h
  cases a with
  | nil => exact absurd (List.cons.inj hp).1 (by decide)
  | cons d a => exact hr.quote_mem (List.cons.inj hp).2

/-- A literal that ends like a number is one. -/
lemma IsLiteral.numeral {l : List Char} (h : IsLiteral Numeral l)
    (hlast : ∀ c, l.getLast? = some c → isNumberChar c = true) : Numeral l := by
  cases h with
  | string hs => exact absurd (hlast _ hs.getLast?_eq) (by decide)
  | boolean hb =>
    simp only [List.mem_cons, List.not_mem_nil, or_false] at hb
    rcases hb with rfl | rfl <;> exact absurd (hlast 'e' (by decide)) (by decide)
  | number hn => exact hn

/-- What stands behind the last space of a text is determined. -/
lemma eq_of_append_space {a b w l : List Char} (hw : ' ' ∉ w) (hl : ' ' ∉ l)
    (h : a ++ ' ' :: w = b ++ ' ' :: l) : w = l := by
  rcases List.append_eq_append_iff.1 h with ⟨c, rfl, hc⟩ | ⟨c, rfl, hc⟩
  · cases c with
    | nil => exact (List.cons.inj hc).2
    | cons d c => exact absurd ((List.cons.inj hc).2 ▸ by simp) hw
  · cases c with
    | nil => exact (List.cons.inj hc).2.symm
    | cons d c => exact absurd ((List.cons.inj hc).2 ▸ by simp) hl

/-- A text that ends with a space and a number is a sentence only if the number is one of
PostgreSQL. -/
theorem numeral_of_sentence {p w : List Char} (hw : Number w)
    (h : Sentence Numeral (p ++ ' ' :: w)) : Numeral w := by
  have hchars := hw.forall_isNumberChar
  have hspace : ' ' ∉ w := fun hmem => absurd (hchars _ hmem) (by decide)
  have hlast : ∀ c, (p ++ ' ' :: w).getLast? = some c → isNumberChar c = true := by
    intro c hc
    cases w with
    | nil => simpa using hw.head
    | cons d w =>
      rw [List.getLast?_append_cons, List.getLast?_cons_cons] at hc
      exact hchars c (List.mem_of_getLast? hc)
  generalize htext : p ++ ' ' :: w = text at h hlast
  cases h with
  | path hp => exact absurd (hchars _ (hp.quote_mem htext.symm)) (by decide)
  | @comparison p' l op _ _ hl =>
    have hend : ∀ c, l.getLast? = some c → isNumberChar c = true := by
      intro c hc
      refine hlast c ?_
      cases l with
      | nil => cases hc
      | cons d l =>
        rwa [List.getLast?_append_cons, ← List.cons_append, List.getLast?_append_cons,
          List.getLast?_cons_cons]
    have hnumeral := hl.numeral hend
    have hl : ' ' ∉ l := fun hmem =>
      absurd ((number_of_numeral hnumeral).forall_isNumberChar _ hmem) (by decide)
    rw [← List.cons_append, ← List.append_assoc] at htext
    rwa [eq_of_append_space hspace hl htext]
  | matching _ _ _ => exact absurd (hlast ')' List.getLast?_concat) (by decide)

end JsonPath
end ContentFilter
