import ContentFilter.Proofs.Condition.Fields
import ContentFilter.Proofs.Text.Cutting
import ContentFilter.Proofs.Token.Reserved
/-!
# Names as locations

Every name is a field path, and it has a wildcard exactly if there is a wildcard character in it
(`FieldPath.exists_ofText?`).  So a name stands for a location without a wildcard exactly if it is a
builtin, or a field that has no wildcard character (`Location.exists_namedBy_iff`).
-/

namespace ContentFilter

open Text
open Lexeme (isWildcard)

/-- A name character is neither a dot nor a wildcard. -/
lemma Lexeme.ne_point_of_isNameChar {c : Char} (h : isNameChar c = true) :
    c ≠ '.' ∧ isWildcard c = false := by
  constructor
  · rintro rfl
    revert h
    decide
  · by_contra hw
    rw [(not_isNameChar_of_isWildcard (by simpa using hw)).1] at h
    cases h

/-! ## Names as field paths -/

namespace FieldPath

variable {names : List (List Char)} {name tail : List Char}

/-- A wildcard is split off behind segments, and nothing else is. -/
lemma splitWildcard_append (hnames : ∀ part ∈ names, isSegment part = true) (w : Option Wildcard) :
    splitWildcard (names ++ wildcardParts w) = (names, w) := by
  unfold splitWildcard
  cases w with
  | some w => cases w <;> simp [wildcardParts]
  | none =>
    rw [wildcardParts, List.append_nil]
    have hlast : ∀ part, names.getLast? = some part → part ≠ ['*'] ∧ part ≠ ['?'] := by
      intro part hpart
      have hsegment := hnames part (List.mem_of_getLast? hpart)
      constructor <;>
        · rintro rfl
          revert hsegment
          decide
    split
    · next h => exact absurd rfl (hlast _ h).1
    · next h => exact absurd rfl (hlast _ h).2
    · rfl

/-- The parts of the tail of a name: name characters, then segments, and perhaps a wildcard. -/
lemma exists_parts (h : Lexeme.NameTail tail) :
    ∃ first segments w, splitOn '.' tail = first :: (segments ++ wildcardParts w) ∧
      (∀ c ∈ first, isNameChar c = true) ∧ (∀ part ∈ segments, isSegment part = true) ∧
      (w = none ↔ ∀ c ∈ tail, isWildcard c = false) := by
  induction h with
  | nil => exact ⟨[], [], none, rfl, by simp, by simp, by simp⟩
  | @char c cs hc _ ih =>
    obtain ⟨first, segments, w, hsplit, hfirst, hsegments, hw⟩ := ih
    obtain ⟨hpoint, hwild⟩ := Lexeme.ne_point_of_isNameChar hc
    exact ⟨c :: first, segments, w, splitOn_cons_of_ne hpoint hsplit,
      List.forall_mem_cons.2 ⟨hc, hfirst⟩, hsegments,
      by rw [List.forall_mem_cons, ← hw, and_iff_right hwild]⟩
  | @segment c cs hc _ ih =>
    obtain ⟨first, segments, w, hsplit, hfirst, hsegments, hw⟩ := ih
    have hname := Lexeme.isNameChar_of_segment hc
    obtain ⟨hpoint, hwild⟩ := Lexeme.ne_point_of_isNameChar hname
    refine ⟨[], (c :: first) :: segments, w, ?_, by simp, ?_, ?_⟩
    · rw [splitOn_cons_self, splitOn_cons_of_ne hpoint hsplit, List.cons_append]
    · refine List.forall_mem_cons.2 ⟨?_, hsegments⟩
      simpa [isSegment, hname] using And.intro hc hfirst
    · rw [List.forall_mem_cons, List.forall_mem_cons, ← hw, and_iff_right hwild,
        and_iff_right (by decide)]
  | @wildcard c hc =>
    have hc' : c = '*' ∨ c = '?' := by simpa [isWildcard] using hc
    rcases hc' with rfl | rfl
    · exact ⟨[], [], some .any, by decide, by simp, by simp, by simp [hc]⟩
    · exact ⟨[], [], some .element, by decide, by simp, by simp, by simp [hc]⟩

/-- Every name is a field path; it has a wildcard if there is a wildcard character in it. -/
theorem exists_ofText? {s : String} (h : Lexeme.Name s.toList) :
    ∃ f, ofText? s = some f ∧ (f.wildcard = none ↔ ∀ c ∈ s.toList, isWildcard c = false) := by
  generalize hcs : s.toList = cs at h
  obtain @⟨c, tail, hletter, htail⟩ := h
  obtain ⟨first, segments, w, hsplit, hfirst, hsegments, hw⟩ := exists_parts htail
  have hname : isNameChar c = true := by simp [isNameChar, isAlnum, hletter]
  obtain ⟨hpoint, hwild⟩ := Lexeme.ne_point_of_isNameChar hname
  have hparts : splitOn '.' s.toList = ((c :: first) :: segments) ++ wildcardParts w := by
    rw [hcs, splitOn_cons_of_ne hpoint hsplit, List.cons_append]
  have hvalid : ∀ part ∈ (c :: first) :: segments, isSegment part = true := by
    refine List.forall_mem_cons.2 ⟨?_, hsegments⟩
    simpa [isSegment, hname, isAlnum, hletter] using hfirst
  refine ⟨⟨String.ofList (c :: first), segments.map String.ofList, w⟩, ?_, ?_⟩
  · rw [ofText?, hparts, splitWildcard_append hvalid]
    exact if_pos (by simpa [hletter] using hvalid)
  · rw [List.forall_mem_cons, ← hw, and_iff_right hwild]

end FieldPath

/-! ## Names as locations -/

namespace Lexeme

/-- A name is a field or a builtin if it is not reserved, and only then. -/
lemma isReserved_eq_false_iff {name : List Char} (b : Builtins) :
    Builtins.isReserved (String.ofList name) = false ↔
      classify b name = .field ∨ classify b name = .builtin := by
  constructor
  · intro h
    rw [classify_of_not_reserved h]
    split <;> simp
  · intro h
    by_contra hr
    rw [Bool.not_eq_false, isReserved_ofList] at hr
    unfold classify at h
    split_ifs at h <;> simp_all

/-- A builtin has a column. -/
lemma exists_column_of_classify {b : Builtins} {name : List Char}
    (h : classify b name = .builtin) : ∃ column, b.column? (String.ofList name) = some column := by
  have hfree := (isReserved_eq_false_iff b).2 (.inr h)
  rw [classify_of_not_reserved hfree, Builtins.contains_eq_isSome] at h
  cases hcolumn : b.column? (String.ofList name) with
  | none => simp [hcolumn] at h
  | some column => exact ⟨column, rfl⟩

end Lexeme

/-- The text is a name that stands for the location, and the location has no wildcard. -/
structure Location.NamedBy (b : Builtins) (name : List Char) (l : Location) : Prop where
  isName : Lexeme.Name name
  reads : l.Reads b (.plain (Lexeme.classify b name) ⟨0, name.length⟩ (String.ofList name))
  not_hasWildcard : l.hasWildcard = false

/-- A name stands for a location without a wildcard exactly if it is a builtin, or a field that has
no wildcard character. -/
lemma Location.exists_namedBy_iff {b : Builtins} {name : List Char} :
    (∃ l : Location, l.NamedBy b name) ↔
      Lexeme.Name name ∧ (Lexeme.classify b name = .builtin ∨
        Lexeme.classify b name = .field ∧ ∀ c ∈ name, isWildcard c = false) := by
  constructor
  · rintro ⟨l, hname, hl, hplain⟩
    refine ⟨hname, ?_⟩
    obtain ⟨f, hf, hwildcard⟩ := FieldPath.exists_ofText? (s := String.ofList name) (by simpa)
    rw [String.toList_ofList] at hwildcard
    cases hl with
    | @field g hk hg =>
      obtain rfl := Option.some.inj (hf.symm.trans hg)
      exact .inr ⟨hk, hwildcard.1 (by simpa [hasWildcard] using hplain)⟩
    | column hk _ => exact .inl hk
  · rintro ⟨hname, hk | ⟨hk, hplain⟩⟩
    · obtain ⟨column, hcolumn⟩ := Lexeme.exists_column_of_classify hk
      exact ⟨.column column, hname, .column hk hcolumn, rfl⟩
    · obtain ⟨f, hf, hwildcard⟩ := FieldPath.exists_ofText? (s := String.ofList name) (by simpa)
      rw [String.toList_ofList] at hwildcard
      exact ⟨.field f, hname, .field hk hf, by simpa [hasWildcard] using hwildcard.2 hplain⟩

end ContentFilter
