import Mathlib.Data.String.Basic
/-!
# The order of bytes

Texts are compared character by character, by the code points of the characters.  In memory a text
is a sequence of bytes, its encoding in UTF-8, and sequences of bytes are compared byte by byte.
Both comparisons agree (`Text.bytes_lt_iff`): of two different characters the lesser one has the lesser
byte where their encodings first differ, and no encoding is the beginning of another one.
-/

namespace ContentFilter
namespace Text

/-- The bytes of a text in UTF-8. -/
def bytes (s : String) : List UInt8 := s.toUTF8.data.toList

lemma bytes_eq_flatMap (s : String) : bytes s = s.toList.flatMap String.utf8EncodeChar := by
  rw [bytes, String.toUTF8, ← String.utf8Encode_toList, List.utf8Encode, List.data_toByteArray]

/-- Where two sequences differ before either of them ends, nothing that follows matters. -/
lemma append_lt_append {xs ys : List UInt8} (hlt : xs < ys) (hbegin : ¬xs <+: ys)
    (r s : List UInt8) : xs ++ r < ys ++ s := by
  induction xs generalizing ys with
  | nil => exact absurd List.nil_prefix hbegin
  | cons x xs ih =>
    cases ys with
    | nil => simp at hlt
    | cons y ys =>
      rw [List.cons_append, List.cons_append, List.cons_lt_cons_iff]
      rw [List.cons_lt_cons_iff] at hlt
      rw [List.cons_prefix_cons] at hbegin
      exact hlt.imp_right fun ⟨hxy, hlt⟩ => ⟨hxy, ih hlt fun h => hbegin ⟨hxy, h⟩⟩

/-- The encodings of two characters are in the order of the characters, and differ before they
end. -/
lemma utf8EncodeChar_lt {c d : Char} (h : c < d) :
    String.utf8EncodeChar c < String.utf8EncodeChar d ∧
      ¬String.utf8EncodeChar c <+: String.utf8EncodeChar d := by
  have hlt : c.val.toNat < d.val.toNat := h
  have hd : d.val.toNat < 0x110000 := by
    have hvalid := d.valid
    simp only [UInt32.isValidChar, Nat.isValidChar] at hvalid
    omega
  unfold String.utf8EncodeChar
  dsimp only
  generalize c.val.toNat = m at *
  generalize d.val.toNat = n at *
  -- encodings of different lengths differ in their first byte, others where the numbers do
  split_ifs <;>
    simp (disch := omega) [List.cons_lt_cons_iff, UInt8.lt_iff_toNat_lt, ← UInt8.toNat_inj,
      Nat.mod_eq_of_lt] <;> omega

lemma bytes_lt {s t : String} (h : s < t) : bytes s < bytes t := by
  rw [String.lt_iff] at h
  rw [bytes_eq_flatMap, bytes_eq_flatMap]
  generalize s.toList = cs at *
  generalize t.toList = ds at *
  induction cs generalizing ds with
  | nil =>
    cases ds with
    | nil => simp at h
    | cons d ds =>
      obtain ⟨x, xs, hx⟩ := List.exists_cons_of_ne_nil (String.utf8EncodeChar_ne_nil (c := d))
      simp [hx]
  | cons c cs ih =>
    cases ds with
    | nil => simp at h
    | cons d ds =>
      rw [List.flatMap_cons, List.flatMap_cons]
      rcases List.cons_lt_cons_iff.1 h with hlt | ⟨rfl, hlt⟩
      · exact append_lt_append (utf8EncodeChar_lt hlt).1 (utf8EncodeChar_lt hlt).2 _ _
      · exact List.append_left_lt (ih ds hlt)

/-- Texts are in the order of their bytes. -/
theorem bytes_lt_iff {s t : String} : bytes s < bytes t ↔ s < t := by
  refine ⟨fun h => ?_, bytes_lt⟩
  rcases lt_trichotomy s t with hlt | rfl | hgt
  · exact hlt
  · exact absurd h (List.lt_irrefl _)
  · exact absurd h (List.lt_asymm (bytes_lt hgt))

end Text
end ContentFilter
