import ContentFilter.Proofs.Sql.Journal
import ContentFilter.Proofs.Sql.Merge
import ContentFilter.Proofs.Sql.Placeholder
/-!
# Renaming placeholders

`Sql.rename` replaces the names of the placeholders in a text of SQL.  It takes the text apart into
literals and code, finds the placeholders in the code, and writes everything else as it was.

The names of one counter are moved to those of another one by their number (`Counter.moved`): what
is first for the one is next for the other.
-/

namespace ContentFilter

/-! ## Moving names -/

namespace Counter

/-- The name of a counter that has the place of a name of the stem, counted from zero. -/
def moved (stem : Stem) (c : Counter) (name : String) : String :=
  nameAt c.stem (c.next + Nat.ofDigitChars 10 (name.toList.drop stem.name.toList.length) 0)

lemma moved_nameAt (stem : Stem) (c : Counter) (i : Nat) :
    moved stem c (nameAt stem i) = nameAt c.stem (c.next + i) := by
  have hdigits : (nameAt stem i).toList.drop stem.name.toList.length = Nat.toDigits 10 i := by
    rw [nameAt, String.toList_append, List.drop_left, Nat.toString_eq_repr, Nat.toList_repr]
  rw [moved, hdigits, Nat.ofDigitChars_ten_toDigits]

end Counter

namespace Sql

/-! ## Writing glyphs -/

/-- The text of some glyphs. -/
def printGlyphs : List Glyph → List Char
  | [] => []
  | .code c :: r => c :: printGlyphs r
  | .literal s :: r => (quote (String.ofList s)).toList ++ printGlyphs r

/-- The text of a literal that is still open, with the quote that opens it. -/
def openText : Option (List Char) → List Char
  | none => []
  | some s => '\'' :: s.flatMap escape

lemma printGlyphs_glyphsFrom {o : Option (List Char)} {cs : List Char} {gs : List Glyph}
    (h : glyphsFrom o cs = some gs) : printGlyphs gs = openText o ++ cs := by
  fun_induction glyphsFrom o cs generalizing gs with
  | case1 =>
    obtain rfl := Option.some.inj h
    rfl
  | case2 => cases h
  | case3 r ih => exact ih h
  | case4 c r _ ih =>
    obtain ⟨gs, hr, rfl⟩ := Option.map_eq_some_iff.1 h
    rw [printGlyphs, ih hr]
    rfl
  | case5 s r ih => simpa [openText, escape] using ih h
  | case6 s r _ ih =>
    obtain ⟨gs, hr, rfl⟩ := Option.map_eq_some_iff.1 h
    rw [printGlyphs, ih hr]
    simp [openText, quote]
  | case7 s c r _ hc ih =>
    have hescape : escape c = [c] := if_neg hc
    simpa [openText, hescape] using ih h

/-- A text is made of its glyphs. -/
lemma printGlyphs_glyphs {text : String} {gs : List Glyph} (h : glyphs text = some gs) :
    String.ofList (printGlyphs gs) = text := by
  have hprint : printGlyphs gs = text.toList := printGlyphs_glyphsFrom h
  rw [hprint, String.ofList_toList]

/-! ## Replacing names -/

variable {stem : Stem} {f : String → String} {cs : List Char} {gs : List Glyph}

/-- The glyphs in which the names of the placeholders are replaced.  The first few are left out, as
they belong to a name that is replaced. -/
def renameGlyphs (stem : Stem) (f : String → String) : Nat → List Glyph → List Glyph
  | _, [] => []
  | skip + 1, _ :: r => renameGlyphs stem f skip r
  | 0, .code ':' :: r =>
    match name? stem (leadingCode r) with
    | some name =>
      .code ':' :: (codeGlyphs (f name) ++ renameGlyphs stem f name.toList.length r)
    | none => .code ':' :: renameGlyphs stem f 0 r
  | 0, g :: r => g :: renameGlyphs stem f 0 r

/-- The text in which the names of the placeholders are replaced, if every literal in it is closed. -/
def rename (stem : Stem) (f : String → String) (text : String) : Option String :=
  (glyphs text).map fun gs => String.ofList (printGlyphs (renameGlyphs stem f 0 gs))

lemma renameGlyphs_skip (xs gs : List Glyph) :
    renameGlyphs stem f xs.length (xs ++ gs) = renameGlyphs stem f 0 gs := by
  induction xs with
  | nil => rfl
  | cons x xs ih => exact ih

lemma renameGlyphs_literal (s : List Char) (gs : List Glyph) :
    renameGlyphs stem f 0 (.literal s :: gs) = .literal s :: renameGlyphs stem f 0 gs := rfl

/-- A name is replaced if no digit follows. -/
lemma renameGlyphs_name (c : Counter) (h : ∀ x ∈ (leadingCode gs).head?, x.isDigit = false) :
    renameGlyphs c.stem f 0 (.code ':' :: (codeGlyphs c.name ++ gs)) =
      .code ':' :: (codeGlyphs (f c.name) ++ renameGlyphs c.stem f 0 gs) := by
  have hskip : renameGlyphs c.stem f c.name.toList.length (codeGlyphs c.name ++ gs) =
      renameGlyphs c.stem f 0 gs := by
    have hlength : (codeGlyphs c.name).length = c.name.toList.length := List.length_map _
    rw [← hlength, renameGlyphs_skip]
  rw [renameGlyphs, codeGlyphs, leadingCode_append, name_append c h]
  exact congrArg (fun r => .code ':' :: (codeGlyphs (f c.name) ++ r)) hskip

/-- Nameless code stays as it is. -/
lemma renameGlyphs_nameless (h : Nameless stem cs) (gs : List Glyph) :
    renameGlyphs stem f 0 (cs.map .code ++ gs) = cs.map .code ++ renameGlyphs stem f 0 gs := by
  induction cs with
  | nil => rfl
  | cons c cs ih =>
    rw [List.map_cons, List.cons_append, List.cons_append, ← ih h.tail]
    by_cases hc : c = ':'
    · subst hc
      rw [renameGlyphs, leadingCode_append, h [] cs rfl]
    · rw [renameGlyphs]
      simpa using hc

end Sql

namespace Template

/-! ## What is bound to a number -/

/-- A name that is used up is bound to the value of the hole that it was used for. -/
lemma get?_fill_nameAt (t : Template) (s : Sink) {i : Nat} (hi : i < t.values.length) :
    (t.fill s).2.get? (Counter.nameAt s.counter.stem (s.counter.next + i)) = some t.values[i] := by
  have hi' : i < (s.counter.names t.values.length).length := by simpa [Counter.names] using hi
  have hbound := (List.forall₂_iff_get.1 (forall₂_get?_fill t s)).2 i hi' hi
  simpa [Counter.names] using hbound

/-- The names that are used up, by their numbers. -/
lemma exists_of_mem_names {c : Counter} {n : Nat} {name : String} (h : name ∈ c.names n) :
    ∃ i < n, Counter.nameAt c.stem (c.next + i) = name := by
  obtain ⟨j, hle, hlt, rfl⟩ := Counter.mem_names.1 h
  obtain ⟨i, rfl⟩ := Nat.exists_eq_add_of_le hle
  exact ⟨i, by omega, rfl⟩

lemma find?_since_fill_eq_some_iff (t : Template) (s : Sink) (name : String) (v : Scalar) :
    ((t.fill s).2.since s).find? name = some v ↔
      ∃ i, Counter.nameAt s.counter.stem (s.counter.next + i) = name ∧ t.values[i]? = some v := by
  rw [find?_since_fill]
  constructor
  · intro h
    split at h
    · next hmem =>
      obtain ⟨i, hi, rfl⟩ := exists_of_mem_names hmem
      rw [get?_fill_nameAt t s hi] at h
      exact ⟨i, rfl, by rw [List.getElem?_eq_getElem hi, h]⟩
    · cases h
  · rintro ⟨i, rfl, hv⟩
    obtain ⟨hi, rfl⟩ := List.getElem?_eq_some_iff.1 hv
    rw [if_pos (Counter.mem_names.2 ⟨_, by omega, by omega, rfl⟩), get?_fill_nameAt t s hi]

/-- What is not gained by filling a template was bound before. -/
lemma get?_fill_eq (t : Template) (s : Sink) (name : String) :
    (t.fill s).2.get? name = (((t.fill s).2.since s).find? name).or (s.get? name) := by
  rw [find?_since_fill]
  split
  · next hmem =>
    obtain ⟨i, hi, rfl⟩ := exists_of_mem_names hmem
    rw [get?_fill_nameAt t s hi, Option.some_or]
  · next hmem => rw [get?_fill_of_notMem t s hmem, Option.none_or]

/-- What a sink that starts without bindings is bound to, by the numbers. -/
lemma get?_fill_ofStem_eq_some_iff (t : Template) (stem : Stem) (name : String) (v : Scalar) :
    (t.fill (.ofStem stem)).2.get? name = some v ↔
      ∃ i, Counter.nameAt stem i = name ∧ t.values[i]? = some v := by
  have hempty : (Sink.ofStem stem).get? name = none := rfl
  have hnext : (Sink.ofStem stem).counter = ⟨stem, 0⟩ := rfl
  rw [get?_fill_eq, hempty, Option.or_none, find?_since_fill_eq_some_iff, hnext]
  simp only [Nat.zero_add]

/-- A sink that starts without bindings has as many as there are holes. -/
lemma size_fill_ofCounter (t : Template) (c : Counter) :
    (t.fill (.ofCounter c)).2.size = t.values.length := by
  have hkeeps := (Journal.keeps_ofCounter c).write t
  rw [run_write] at hkeeps
  have hsize := hkeeps.size
  simpa [Journal.ofCounter, Counter.names] using hsize

end Template
end ContentFilter
