import ContentFilter.Proofs.Sql.Connective
/-!
# Printing a tree as SQL

A tree of texts is printed with ` AND ` and ` OR ` between its texts, and with parentheses that hug
what they enclose.  If each text closes its literals, contains its connectives and is bare, then
reading the printed text gives the tree back (`Tree.read_print`), whatever the texts are.
-/

namespace ContentFilter

namespace Sql

variable {x y : String} {us vs : List Sign}

/-- A text whose literals are closed is read by itself, unless what follows begins with a
quote. -/
lemma glyphs_append {gs : List Glyph} (hx : glyphs x = some gs)
    (hy : y.toList.head? ≠ some '\'') : glyphs (x ++ y) = (glyphs y).map (gs ++ ·) := by
  rw [glyphs, String.toList_append]
  exact glyphsFrom_append hx hy

lemma glyphs_code_append (hx : '\'' ∉ x.toList) (y : String) :
    glyphs (x ++ y) = (glyphs y).map (codeGlyphs x ++ ·) := by
  rw [glyphs, String.toList_append]
  exact glyphsFrom_codes hx y.toList

lemma signsOf_parens (h : signsOf x = some us) :
    signsOf ("(" ++ x ++ ")") = some (.leftParen :: (us ++ [.rightParen])) := by
  obtain ⟨gs, hgs, rfl⟩ := Option.map_eq_some_iff.1 h
  have hclose : glyphs (x ++ ")") = some (gs ++ [.code ')']) := by
    rw [glyphs_append hgs (by decide)]
    rfl
  -- a word that the text ends with does not go on with the parenthesis
  have hdelimited : Delimited [.code ')'] := by
    intro c r hc
    obtain ⟨rfl, -⟩ := by simpa using hc
    decide
  have hopen : ∀ hs, signs (codeGlyphs "(" ++ hs) = .leftParen :: signs hs := fun _ => rfl
  rw [signsOf, String.append_assoc, glyphs_code_append (by decide), hclose, Option.map_some,
    Option.map_some, hopen, signs_append_of_delimited gs hdelimited]
  rfl

/-- Two texts with a connective between them are read one after the other. -/
lemma signsOf_joined {separator : String} {r w : List Char} (hspace : separator.toList = ' ' :: r)
    (hquote : '\'' ∉ separator.toList)
    (hsigns : ∀ gs, signs (codeGlyphs separator ++ gs) = space ++ .word w :: (space ++ signs gs))
    (hx : signsOf x = some us) (hy : signsOf y = some vs) :
    signsOf (x ++ separator ++ y) = some (joined us w vs) := by
  obtain ⟨gs, hgs, rfl⟩ := Option.map_eq_some_iff.1 hx
  obtain ⟨hs, hhs, rfl⟩ := Option.map_eq_some_iff.1 hy
  have htail : glyphs (separator ++ y) = some (codeGlyphs separator ++ hs) := by
    rw [glyphs_code_append hquote, hhs]
    rfl
  have hhead : (separator ++ y).toList.head? ≠ some '\'' := by simp [hspace]
  have hdelimited : Delimited (codeGlyphs separator ++ hs) := by
    intro c r' hc
    obtain ⟨rfl, -⟩ := by simpa [codeGlyphs, hspace] using hc
    decide
  rw [signsOf, String.append_assoc, glyphs_append hgs hhead, htail, Option.map_some,
    Option.map_some, signs_append_of_delimited gs hdelimited, hsigns]
  simp [joined]

end Sql

namespace Filter.Tree

open Sql

variable {l : Level}

/-- A tree of texts as one text. -/
def print : {l : Level} → Tree String l → String
  | _, atom text => text
  | _, group e => "(" ++ e.print ++ ")"
  | _, ofTerm t => t.print
  | _, and t c => t.print ++ " AND " ++ c.print
  | _, ofConj c => c.print
  | _, or c e => c.print ++ " OR " ++ e.print

/-- The signs of a printed tree are those of its texts. -/
lemma signsOf_print {f : String → List Sign} (t : Tree String l)
    (h : ∀ x ∈ t.atoms, signsOf x = some (f x)) : signsOf t.print = some (t.map f).signs := by
  induction t with
  | atom x => exact h x (by simp [atoms])
  | group d ih => exact signsOf_parens (ih h)
  | ofTerm t ih => exact ih h
  | and t c iht ihc =>
    exact signsOf_joined rfl (by decide) (fun _ => rfl)
      (iht fun x hx => h x (List.mem_append_left _ hx))
      (ihc fun x hx => h x (List.mem_append_right _ hx))
  | ofConj c ih => exact ih h
  | or c d ihc ihd =>
    exact signsOf_joined rfl (by decide) (fun _ => rfl)
      (ihc fun x hx => h x (List.mem_append_left _ hx))
      (ihd fun x hx => h x (List.mem_append_right _ hx))

/-- The depth of the parentheses can be followed through a printed tree, and the tree can be read
from it. -/
theorem read_print {f : String → List Sign} (t : Tree String .disj)
    (h : ∀ x ∈ t.atoms, signsOf x = some (f x) ∧ Contained (f x) ∧ bare 0 (f x) = true) :
    (∃ ls, signsOf t.print = some ls ∧ Balanced ls) ∧
      Sql.read t.print = some (t.map fun x => trim (f x)) := by
  have hprint := t.signsOf_print fun x hx => (h x hx).1
  have hatoms : ∀ a ∈ (t.map f).atoms, walk isConnective 0 a = some 0 ∧ bare 0 a = true := by
    intro a ha
    rw [atoms_map] at ha
    obtain ⟨x, hx, rfl⟩ := List.mem_map.1 ha
    exact ⟨contained_iff.1 (h x hx).2.1, (h x hx).2.2⟩
  have hread := readAt_signs (t.map f) hatoms blank_nil blank_nil
  refine ⟨⟨_, hprint, balanced_iff.2 (walk_signs _ fun a ha => (hatoms a ha).1)⟩, ?_⟩
  rw [List.nil_append, List.append_nil, map_map] at hread
  rw [Sql.read, hprint, Option.map_some, hread]

end Filter.Tree
end ContentFilter
