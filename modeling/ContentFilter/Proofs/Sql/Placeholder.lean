import ContentFilter.Proofs.Sql.Glyph
import Mathlib.Data.List.TakeWhile
/-!
# The placeholders in a text of SQL

A placeholder of a stem is a colon outside of literals, the stem, and digits; it ends where the
digits do.  `Sql.placeholders` finds the names of all of them in the order of the text.  It finds
what a sink has put in place of a hole (`name_append`), and it finds nothing in code that is
quiet, whatever follows the code (`placeholders_quiet`).
-/

namespace ContentFilter
namespace Sql

/-- The characters up to the next literal. -/
def leadingCode : List Glyph → List Char
  | .code c :: r => c :: leadingCode r
  | _ => []

/-- The name that some characters begin with: the stem and digits. -/
def name? (stem : Stem) (cs : List Char) : Option String :=
  let digits := (cs.drop stem.name.toList.length).takeWhile Char.isDigit
  if stem.name.toList.isPrefixOf cs && !digits.isEmpty then
    some (stem.name ++ String.ofList digits)
  else none

/-- The names of the placeholders in the order of the text. -/
def placeholders (stem : Stem) : List Glyph → List String
  | [] => []
  | .code ':' :: r => (name? stem (leadingCode r)).toList ++ placeholders stem r
  | _ :: r => placeholders stem r

/-- No placeholder begins in the text: it has no colon, or it has no digit and ends within no word
and not with a colon. -/
def quiet (x : String) : Bool :=
  !x.toList.contains ':' ||
    (x.toList.all (!·.isDigit) && x.toList.getLast?.any fun c => !isWordChar c && c ≠ ':')

variable {stem : Stem} {cs : List Char} {gs : List Glyph}

lemma leadingCode_append (cs : List Char) (gs : List Glyph) :
    leadingCode (cs.map .code ++ gs) = cs ++ leadingCode gs := by
  induction cs with
  | nil => rfl
  | cons c cs ih => simp [leadingCode, ih]

lemma placeholders_code {c : Char} (h : c ≠ ':') :
    placeholders stem (.code c :: gs) = placeholders stem gs := by
  rw [placeholders]
  simpa using h

/-! ## Placeholders of a counter -/

lemma isDigit_of_mem_toString {n : Nat} : ∀ c ∈ (toString n).toList, c.isDigit = true := by
  intro c hc
  rw [Nat.toString_eq_repr, Nat.toList_repr] at hc
  exact Nat.isDigit_of_mem_toDigits (by decide) (by decide) hc

/-- A name of the stem is found if no digit follows. -/
lemma name_append (c : Counter) (h : ∀ x ∈ cs.head?, x.isDigit = false) :
    name? c.stem (c.name.toList ++ cs) = some c.name := by
  have hdigits : ((toString c.next).toList ++ cs).takeWhile Char.isDigit =
      (toString c.next).toList := by
    rw [List.takeWhile_append_of_pos isDigit_of_mem_toString]
    cases cs with
    | nil => simp
    | cons x cs =>
      have hx := h x rfl
      rw [List.takeWhile_cons_of_neg (by simp [hx]), List.append_nil]
  have hprefix : c.stem.name.toList.isPrefixOf (c.stem.name.toList ++
      ((toString c.next).toList ++ cs)) = true := by
    rw [List.isPrefixOf_iff_prefix]
    exact List.prefix_append _ _
  simp only [name?, Counter.name, Counter.nameAt, String.toList_append, List.append_assoc,
    List.drop_left', hdigits, hprefix]
  rw [if_pos (by simp), String.ofList_toList]

/-! ## Quiet code -/

/-- What stands behind the stem in a name is a digit. -/
lemma exists_prefix_of_name {name : String} (h : name? stem cs = some name) :
    ∃ d : Char, d.isDigit = true ∧ stem.name.toList ++ [d] <+: cs := by
  unfold name? at h
  simp only at h
  split at h
  · next hcond =>
    rw [Bool.and_eq_true, List.isPrefixOf_iff_prefix] at hcond
    obtain ⟨⟨r, rfl⟩, hne⟩ := hcond
    rw [List.drop_left'] at hne
    · cases r with
      | nil => simp at hne
      | cons d r =>
        by_cases hd : d.isDigit = true
        · exact ⟨d, hd, r, by simp⟩
        · simp [hd] at hne
    · rfl
  · cases h

/-- The characters of a stem are those of words. -/
lemma isWordChar_of_mem_stem : ∀ x ∈ stem.name.toList, isWordChar x = true := by
  intro x hx
  refine (Counter.ofStem stem).isWordChar_of_mem_name x ?_
  rw [Counter.name, Counter.nameAt, String.toList_append]
  exact List.mem_append_left _ hx

/-- Text without digits in which a word ends does not begin with a name. -/
lemma name_eq_none {y : List Char} (hdigit : ∀ c ∈ y, c.isDigit = false) {z : Char} (hz : z ∈ y)
    (hword : isWordChar z = false) (cs : List Char) : name? stem (y ++ cs) = none := by
  rw [Option.eq_none_iff_forall_ne_some]
  intro name hname
  obtain ⟨d, hd, hprefix⟩ := exists_prefix_of_name hname
  -- either the name ends within the text, digit included, or all of the text is in the name
  rcases List.prefix_or_prefix_of_prefix hprefix (List.prefix_append y cs) with h | h
  · exact absurd hd (by simp [hdigit d (h.mem (by simp))])
  · rcases List.mem_append.1 (h.mem hz) with hmem | hmem
    · exact absurd (isWordChar_of_mem_stem z hmem) (by simp [hword])
    · obtain rfl := List.mem_singleton.1 hmem
      exact absurd hword (by simp [isWordChar, Char.isAlphanum, hd])

/-- No placeholder begins in the characters, whatever follows them. -/
def Nameless (stem : Stem) (cs : List Char) : Prop :=
  ∀ xs ys, cs = xs ++ ':' :: ys → ∀ r, name? stem (ys ++ r) = none

lemma Nameless.tail {c : Char} (h : Nameless stem (c :: cs)) : Nameless stem cs :=
  fun xs ys heq => h (c :: xs) ys (by rw [heq, List.cons_append])

lemma nameless_of_notMem (h : ':' ∉ cs) : Nameless stem cs :=
  fun xs ys heq => absurd (by simp [heq]) h

lemma nameless_of_quiet {x : String} (h : quiet x = true) : Nameless stem x.toList := by
  unfold quiet at h
  rcases Bool.or_eq_true_iff.1 h with h | h
  · exact nameless_of_notMem (by simpa using h)
  · rw [Bool.and_eq_true, List.all_eq_true, Option.any_eq_true] at h
    obtain ⟨hdigit, z, hlast, hz⟩ := h
    simp only [Bool.and_eq_true, Bool.not_eq_true', decide_eq_true_eq] at hdigit hz
    intro xs ys heq r
    -- a colon is not the last character, so that the one in which a word ends stands behind it
    have hmem : z ∈ ys := by
      rw [heq, List.getLast?_append, List.getLast?_cons] at hlast
      cases hys : ys.getLast? with
      | none => exact absurd (by simpa [hys] using hlast.symm) hz.2
      | some w =>
        obtain rfl : w = z := by simpa [hys] using hlast
        exact List.mem_of_getLast? hys
    exact name_eq_none (fun c hc => hdigit c (by simp [heq, hc])) hmem hz.1 r

/-- No placeholder is found in nameless code. -/
lemma placeholders_nameless (h : Nameless stem cs) (gs : List Glyph) :
    placeholders stem (cs.map .code ++ gs) = placeholders stem gs := by
  induction cs with
  | nil => rfl
  | cons c cs ih =>
    rw [List.map_cons, List.cons_append]
    by_cases hc : c = ':'
    · subst hc
      rw [placeholders, leadingCode_append, h [] cs rfl]
      exact ih h.tail
    · rw [placeholders_code hc]
      exact ih h.tail

lemma placeholders_codes (h : ':' ∉ cs) :
    placeholders stem (cs.map .code ++ gs) = placeholders stem gs :=
  placeholders_nameless (nameless_of_notMem h) gs

/-- No placeholder begins in quiet code. -/
lemma placeholders_quiet {x : String} (h : quiet x = true) (gs : List Glyph) :
    placeholders stem (codeGlyphs x ++ gs) = placeholders stem gs :=
  placeholders_nameless (nameless_of_quiet h) gs

end Sql

/-- The code that a parted template begins with ends every word in front of it. -/
lemma Template.Parted.isDelimiter_head {t : Template} (h : t.Parted) (c : Counter) :
    ∀ x ∈ (Sql.leadingCode (t.glyphs c)).head?, Sql.isDelimiter x = true := by
  intro x hx
  match t, h with
  | [], _ => simp [glyphs, Sql.leadingCode] at hx
  | .code y :: t, h =>
    cases hy : y.toList with
    | nil => simp [Parted, hy] at h
    | cons a r =>
      simp only [Parted, hy, List.head?_cons, Option.any_some] at h
      have hxa : x = a := by simpa [glyphs, Sql.codeGlyphs, hy, Sql.leadingCode, eq_comm] using hx
      exact hxa ▸ h

end ContentFilter
