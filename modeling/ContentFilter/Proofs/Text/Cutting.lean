import ContentFilter.Text.Blank
import Mathlib.Data.List.DropRight
import Mathlib.Data.List.TakeWhile
import Mathlib.Tactic.Conv
/-!
# Cutting texts

What the parts are that a text is cut into: at a separator, at the first character that is not of a
kind, and into words at the blanks; and that blanks at the end do not matter to the words.
-/

namespace ContentFilter
namespace Text

variable {sep c : Char} {p : Char → Bool} {cs ds rest first : List Char} {parts : List (List Char)}

/-- A text of characters of a kind is what is taken of a longer text, if the rest does not begin
with one of them. -/
lemma span_append (hcs : ∀ c ∈ cs, p c = true) (hrest : ∀ c ∈ rest.head?, p c = false) :
    (cs ++ rest).takeWhile p = cs ∧ (cs ++ rest).dropWhile p = rest := by
  rw [List.takeWhile_append_of_pos hcs, List.dropWhile_append_of_pos hcs]
  cases rest with
  | nil => simp
  | cons c r => simp [hrest c rfl]

/-- What is left behind the characters of a kind begins with another one. -/
lemma head?_dropWhile (p : Char → Bool) (cs : List Char) :
    ∀ c ∈ (cs.dropWhile p).head?, p c = false := by
  intro c hc
  have hhead := List.head?_dropWhile_not p cs
  rw [Option.mem_def.1 hc] at hhead
  simpa using hhead

/-! ## Separators -/

/-- A character that is not the separator belongs to the first part. -/
lemma splitOn_cons_of_ne (hc : c ≠ sep) (h : splitOn sep cs = first :: parts) :
    splitOn sep (c :: cs) = (c :: first) :: parts := by
  rw [splitOn] at h ⊢
  rw [List.splitOn_cons_eq_if_modifyHead, if_neg (by simpa using hc), h, List.modifyHead_cons]

/-- The separator ends a part that is empty so far. -/
lemma splitOn_cons_self (sep : Char) (cs : List Char) :
    splitOn sep (sep :: cs) = [] :: splitOn sep cs :=
  List.splitOn_append_cons_self [] cs

/-- What is written behind a text and has no separator in it belongs to the last part. -/
lemma exists_splitOn_append (cs : List Char) (h : sep ∉ ds) :
    ∃ parts last, splitOn sep cs = parts ++ [last] ∧
      splitOn sep (cs ++ ds) = parts ++ [last ++ ds] := by
  induction cs with
  | nil => exact ⟨[], [], rfl, List.splitOn_eq_singleton h⟩
  | cons c cs ih =>
    obtain ⟨parts, last, hsplit, happend⟩ := ih
    rw [List.cons_append]
    by_cases hc : c = sep
    · subst hc
      exact ⟨[] :: parts, last, by rw [splitOn_cons_self, hsplit, List.cons_append],
        by rw [splitOn_cons_self, happend, List.cons_append]⟩
    · cases parts with
      | nil =>
        exact ⟨[], c :: last, splitOn_cons_of_ne hc hsplit, splitOn_cons_of_ne hc happend⟩
      | cons part parts =>
        exact ⟨(c :: part) :: parts, last, splitOn_cons_of_ne hc hsplit,
          splitOn_cons_of_ne hc happend⟩

/-! ## Blanks -/

lemma trim_ne_nil (hc : c ∈ cs) (hblank : isBlank c = false) : trim cs ≠ [] := by
  have hkept : ∀ {ds : List Char}, c ∈ ds → c ∈ ds.dropWhile isBlank := by
    intro ds hd
    rw [← List.takeWhile_append_dropWhile (p := isBlank) (l := ds), List.mem_append] at hd
    refine hd.resolve_left fun hdropped => ?_
    rw [List.mem_takeWhile_imp hdropped] at hblank
    cases hblank
  rw [trim, trimEnd]
  intro hnil
  have hmem := hkept (List.mem_reverse.2 (hkept hc))
  rw [List.reverse_eq_nil_iff.1 hnil] at hmem
  cases hmem

/-- A text is trimmed to nothing exactly if it is blank. -/
lemma trim_eq_nil_iff : trim cs = [] ↔ ∀ c ∈ cs, isBlank c = true := by
  constructor
  · intro h c hc
    by_contra hblank
    exact trim_ne_nil hc (by simpa using hblank) h
  · intro h
    rw [trim, List.dropWhile_eq_nil_iff.2 h]
    rfl

/-- The words of a text: the parts between its blanks, without the empty ones. -/
def words (cs : List Char) : List (List Char) :=
  (cs.splitOnP isBlank).filter fun word => !word.isEmpty

@[simp] lemma words_nil : words [] = [] := by simp [words]

/-- A blank in front belongs to no word. -/
lemma words_cons_of_blank (hc : isBlank c = true) : words (c :: cs) = words cs := by
  simp [words, List.splitOnP_cons_eq_if_modifyHead, hc]

lemma words_dropWhile_blank (cs : List Char) : words (cs.dropWhile isBlank) = words cs := by
  induction cs with
  | nil => rfl
  | cons c cs ih =>
    rw [List.dropWhile_cons]
    split
    · next hc => rw [ih, words_cons_of_blank hc]
    · rfl

/-- A text that begins with no blank has a first word, which ends at the next blank. -/
lemma words_cons (hc : isBlank c = false) :
    words (c :: cs) =
      (c :: cs).takeWhile (!isBlank ·) :: words ((c :: cs).dropWhile (!isBlank ·)) := by
  have hword : ∀ x ∈ (c :: cs).takeWhile (!isBlank ·), isBlank x = false := fun x hx => by
    simpa using List.mem_takeWhile_imp hx
  have hne : (c :: cs).takeWhile (!isBlank ·) ≠ [] := by simp [hc]
  conv_lhs => rw [← List.takeWhile_append_dropWhile (p := (!isBlank ·)) (l := c :: cs)]
  cases hrest : (c :: cs).dropWhile (!isBlank ·) with
  | nil => simp [words, List.splitOnP_eq_singleton hword, hne]
  | cons d ds =>
    have hd : isBlank d = true := by
      simpa using head?_dropWhile (!isBlank ·) (c :: cs) d (by rw [hrest]; rfl)
    rw [words_cons_of_blank hd, words, List.splitOnP_append_cons_of_forall_mem hword _ hd,
      List.filter_cons_of_pos (by simpa using hne)]
    rfl

/-- A text has no words exactly if it is blank. -/
lemma words_eq_nil_iff : words cs = [] ↔ ∀ c ∈ cs, isBlank c = true := by
  induction cs with
  | nil => simp
  | cons c cs ih =>
    cases hc : isBlank c with
    | true => rw [words_cons_of_blank hc, ih, List.forall_mem_cons, and_iff_right hc]
    | false => simp [words_cons hc, hc]

/-! ### Blanks at the end -/

/-- What is taken off the end of a text are blanks. -/
lemma exists_trimEnd_append (cs : List Char) :
    ∃ blanks, (∀ c ∈ blanks, isBlank c = true) ∧ trimEnd cs ++ blanks = cs :=
  ⟨cs.rtakeWhile isBlank, fun _ => List.mem_rtakeWhile_imp, List.rdropWhile_append_rtakeWhile⟩

lemma trimEnd_eq_self (h : ∀ c ∈ cs.getLast?, isBlank c = false) : trimEnd cs = cs :=
  List.rdropWhile_eq_self_iff.2 fun hne => by
    simp [h _ (List.getLast?_eq_some_getLast hne)]

lemma trimEnd_append_of_blank (h : ∀ c ∈ ds, isBlank c = true) :
    trimEnd (cs ++ ds) = trimEnd cs := by
  rw [trimEnd, List.reverse_append, List.dropWhile_append_of_pos fun c hc =>
    h c (List.mem_reverse.1 hc), trimEnd]

lemma trim_append_of_blank (h : ∀ c ∈ ds, isBlank c = true) : trim (cs ++ ds) = trim cs := by
  rw [trim, List.dropWhile_append, trim]
  split
  · next hnil =>
    rw [List.isEmpty_iff.1 hnil, List.dropWhile_eq_nil_iff.2 h]
  · exact trimEnd_append_of_blank h

lemma words_append_of_blank (h : ∀ c ∈ ds, isBlank c = true) : words (cs ++ ds) = words cs := by
  cases ds with
  | nil => rw [List.append_nil]
  | cons d ds =>
    obtain ⟨hd, hds⟩ := List.forall_mem_cons.1 h
    have hnone : words ds = [] := words_eq_nil_iff.2 hds
    rw [words, List.splitOnP_append_cons cs ds hd, List.filter_append, ← words, ← words, hnone,
      List.append_nil]

end Text
end ContentFilter
