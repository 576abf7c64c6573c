import ContentFilter.Proofs.Condition.Reading
import Mathlib.Tactic.Lemma
/-!
# The fields of a condition

A field path is written in one way only, so the path tells the text that it was read from
(`FieldPath.eq_of_ofText?`), and its name and segments are made of name characters
(`FieldPath.WellFormed`).  Every field that a condition is about is the path of one of its tokens,
which is a field and not a builtin (`Condition.Reads.exists_field`).
-/

namespace ContentFilter

namespace FieldPath

/-- The part behind the last dot that a wildcard is written as. -/
def wildcardParts : Option Wildcard → List (List Char)
  | none => []
  | some .any => [['*']]
  | some .element => [['?']]

/-- The text that a path is written as. -/
def text (f : FieldPath) : List Char :=
  ['.'].intercalate ((f.name :: f.segments).map String.toList ++ wildcardParts f.wildcard)

/-- The name and the segments are made of name characters, and the name begins with a letter. -/
structure WellFormed (f : FieldPath) : Prop where
  isLetter_head : f.name.toList.head?.any Text.isLetter = true
  isSegment : ∀ part ∈ f.name :: f.segments, FieldPath.isSegment part.toList = true

/-- A segment begins with what may follow a dot, and goes on with name characters. -/
lemma exists_of_isSegment {cs : List Char} (h : isSegment cs = true) :
    ∃ c r, cs = c :: r ∧ (Text.isAlnum c = true ∨ c = '_') ∧
      ∀ d ∈ r, Text.isNameChar d = true := by
  cases cs with
  | nil => cases h
  | cons c r =>
    rw [isSegment, Bool.and_eq_true, List.all_eq_true, List.forall_mem_cons] at h
    exact ⟨c, r, rfl, by simpa using h.1, h.2.2⟩

lemma isNameChar_of_isSegment {cs : List Char} (h : isSegment cs = true) :
    ∀ c ∈ cs, Text.isNameChar c = true := by
  obtain ⟨c, r, rfl, hc, hr⟩ := exists_of_isSegment h
  refine List.forall_mem_cons.2 ⟨?_, hr⟩
  rcases hc with hc | rfl <;> simp [Text.isNameChar, *]

/-- The keys of a path are segments. -/
lemma WellFormed.isSegment_keys {f : FieldPath} (h : f.WellFormed) :
    ∀ k ∈ f.keys, FieldPath.isSegment k.toList = true := by
  have hvalue : FieldPath.isSegment "value".toList = true := by decide +kernel
  obtain ⟨hname, hsegments⟩ := List.forall_mem_cons.1 h.isSegment
  exact List.forall_mem_cons.2 ⟨hname, List.forall_mem_cons.2 ⟨hvalue, hsegments⟩⟩

lemma eq_append_of_splitWildcard {parts names : List (List Char)} {w : Option Wildcard}
    (h : splitWildcard parts = (names, w)) : parts = names ++ wildcardParts w := by
  unfold splitWildcard at h
  split at h
  · next hlast =>
    obtain ⟨rfl, rfl⟩ := Prod.mk.inj h
    exact (List.dropLast_append_getLast? _ hlast).symm
  · next hlast =>
    obtain ⟨rfl, rfl⟩ := Prod.mk.inj h
    exact (List.dropLast_append_getLast? _ hlast).symm
  · obtain ⟨rfl, rfl⟩ := Prod.mk.inj h
    exact (List.append_nil _).symm

/-- A path that is read is well-formed, and is written as it was read. -/
lemma ofText?_eq_some {s : String} {f : FieldPath} (h : ofText? s = some f) :
    f.WellFormed ∧ s.toList = f.text := by
  unfold ofText? at h
  split at h
  · cases h
  · next name segments w hsplit =>
    split at h
    · next hvalid =>
      obtain rfl := Option.some.inj h
      obtain ⟨hletter, hsegments⟩ := Bool.and_eq_true_iff.1 hvalid
      have hparts : ((String.ofList name :: segments.map String.ofList).map String.toList) =
          name :: segments := by
        simp
      refine ⟨⟨by simpa using hletter, ?_⟩, ?_⟩
      · simpa using hsegments
      · rw [text, hparts, ← eq_append_of_splitWildcard hsplit, List.intercalate_splitOn]
    · cases h

/-- No two texts are read as the same path. -/
theorem eq_of_ofText? {s s' : String} {f : FieldPath} (h : ofText? s = some f)
    (h' : ofText? s' = some f) : s = s' :=
  String.toList_injective ((ofText?_eq_some h).2.trans (ofText?_eq_some h').2.symm)

end FieldPath

/-! ## Fields -/

/-- The field that a location is, if it is one. -/
def Location.fields : Location → List FieldPath
  | field f => [f]
  | column _ => []

/-- The field on the left side, if there is one. -/
def Subject.fields : Subject → List FieldPath
  | location l => l.fields
  | _ => []

/-- The field on the right side, if there is one. -/
def Operand.fields : Operand → List FieldPath
  | location l => l.fields
  | _ => []

/-- The fields that a condition is about. -/
def Condition.fields : Condition → List FieldPath
  | comparison left _ right => left.fields ++ right.fields
  | nullity l _ => l.fields
  | presence f => [f]
  | urlPath _ value _ => value.fields

variable {b : Builtins} {t left operator right : Token} {f : FieldPath}

/-- The token is a field with the given path. -/
def Token.IsField (t : Token) (f : FieldPath) : Prop :=
  t.kind = .field ∧ FieldPath.ofText? t.lexeme = some f

/-- The path of a token is well-formed. -/
lemma Token.IsField.wellFormed (h : t.IsField f) : f.WellFormed := (FieldPath.ofText?_eq_some h.2).1

lemma Location.Reads.isField {l : Location} (h : l.Reads b t) (hf : f ∈ l.fields) :
    t.IsField f := by
  cases h with
  | field hk htext =>
    obtain rfl := List.mem_singleton.1 hf
    exact ⟨hk, htext⟩
  | column => simp [fields] at hf

lemma Subject.Reads.isField {l : Subject} (h : l.Reads b t) (hf : f ∈ l.fields) :
    t.IsField f := by
  cases h with
  | location hl => exact hl.isField hf
  | number | boolean => simp [fields] at hf

lemma Operand.Reads.isField {v : Operand} (h : v.Reads b t) (hf : f ∈ v.fields) :
    t.IsField f := by
  cases h with
  | location hl => exact hl.isField hf
  | _ => simp [fields] at hf

namespace Condition

variable {c : Condition}

/-- Every field of a condition is the path of one of its tokens. -/
lemma Reads.exists_field (h : c.Reads b left operator right) (hf : f ∈ c.fields) :
    ∃ t ∈ [left, operator, right], t.IsField f := by
  cases h with
  | nullity _ _ hl _ _ => exact ⟨left, by simp, hl.isField hf⟩
  | pathLeft _ _ hv _ _ _ => exact ⟨right, by simp, hv.isField hf⟩
  | pathRight _ _ hv _ _ _ => exact ⟨left, by simp, hv.isField hf⟩
  | comparison hl hr _ _ _ _ _ =>
    rcases List.mem_append.1 hf with hf | hf
    · exact ⟨left, by simp, hl.isField hf⟩
    · exact ⟨right, by simp, hr.isField hf⟩

/-- The field of a condition of one token is that token. -/
lemma isField_of_ofLone (h : ofLone t = .ok c) (hf : f ∈ c.fields) : t.IsField f := by
  obtain ⟨g, hk, htext, rfl⟩ := ofLone_eq_ok_iff.1 h
  obtain rfl := List.mem_singleton.1 hf
  exact ⟨hk, htext⟩

end Condition
end ContentFilter
