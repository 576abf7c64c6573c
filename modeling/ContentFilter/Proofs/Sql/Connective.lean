import ContentFilter.Proofs.Filter.Tree
import ContentFilter.Proofs.Sql.Sign
import Mathlib.Data.List.DropRight
/-!
# Reading the connectives in SQL

SQL has the connectives of a filter, with the same precedence.  `Sql.read` reads a text of SQL as a
tree of conditions, as a database does: it splits the signs at each `OR` outside of parentheses,
then at each `AND`, and takes off the parentheses around a term that has nothing else in it.  What
cannot be split any further is an atom, without the blanks around it.

Reading inverts writing.  A tree of signs is written with blanks around its connectives
(`Tree.signs`); if its atoms are contained, and not all of an atom stands in parentheses
(`Sql.bare`), then it is read again as it was (`readAt_signs`).
-/

namespace ContentFilter
namespace Sql

open ContentFilter.Filter (Level Tree)

/-! ## Splitting -/

/-- The depth behind a sign.  A parenthesis that was not opened is disregarded. -/
def Sign.after (d : Nat) : Sign → Nat
  | leftParen => d + 1
  | rightParen => d - 1
  | _ => d

/-- The sign is a word of a class. -/
def Sign.isWordOf (sep : List Char → Bool) : Sign → Bool
  | word w => sep w
  | _ => false

/-- What stands before and behind the first word of a class outside of parentheses. -/
def cut (sep : List Char → Bool) : Nat → List Sign → Option (List Sign × List Sign)
  | _, [] => none
  | d, x :: r =>
    if d = 0 ∧ x.isWordOf sep = true then some ([], r)
    else (cut sep (x.after d) r).map fun p => (x :: p.1, p.2)

/-- The signs without the blanks around them. -/
def trim (ls : List Sign) : List Sign := (ls.dropWhile Sign.isBlank).rdropWhile Sign.isBlank

/-- What a pair of parentheses encloses that has nothing else around it. -/
def unwrap? : List Sign → Option (List Sign)
  | .leftParen :: r =>
    if r.getLast? = some .rightParen ∧ walk (fun _ => false) 0 r.dropLast = some 0 then
      some r.dropLast
    else none
  | _ => none

lemma eq_append_of_cut {sep : List Char → Bool} {d : Nat} {ls us vs : List Sign}
    (h : cut sep d ls = some (us, vs)) : ∃ x, ls = us ++ x :: vs := by
  induction ls generalizing d us with
  | nil => simp [cut] at h
  | cons y ls ih =>
    rw [cut] at h
    split at h
    · obtain ⟨rfl, rfl⟩ := by simpa using h
      exact ⟨y, rfl⟩
    · obtain ⟨⟨us', vs'⟩, hcut, heq⟩ := Option.map_eq_some_iff.1 h
      obtain ⟨rfl, rfl⟩ := by simpa using heq
      obtain ⟨x, rfl⟩ := ih hcut
      exact ⟨x, rfl⟩

lemma length_trim_le (ls : List Sign) : (trim ls).length ≤ ls.length :=
  (List.rdropWhile_prefix _ _).length_le.trans (List.dropWhile_suffix _).length_le

lemma length_unwrap {ls inner : List Sign} (h : unwrap? ls = some inner) :
    inner.length < ls.length := by
  unfold unwrap? at h
  split at h
  · split at h
    · obtain rfl := by simpa using h
      simp only [List.length_dropLast, List.length_cons]
      omega
    · simp at h
  · simp at h

/-! ## Reading -/

/-- The place of a level in the order in which it is read. -/
def rank : Level → Nat
  | .disj => 2
  | .conj => 1
  | .term => 0

/-- Read signs as a tree of a level. -/
def readAt : (l : Level) → List Sign → Tree (List Sign) l
  | .disj, ls =>
    match _h : cut isOr 0 ls with
    | some (us, vs) => .or (readAt .conj us) (readAt .disj vs)
    | none => .ofConj (readAt .conj ls)
  | .conj, ls =>
    match _h : cut isAnd 0 ls with
    | some (us, vs) => .and (readAt .term us) (readAt .conj vs)
    | none => .ofTerm (readAt .term ls)
  | .term, ls =>
    match _h : unwrap? (trim ls) with
    | some inner => .group (readAt .disj inner)
    | none => .atom (trim ls)
termination_by l ls => (ls.length, rank l)
decreasing_by
  · obtain ⟨x, rfl⟩ := eq_append_of_cut _h
    exact Prod.Lex.left _ _ (by simp only [List.length_append, List.length_cons]; omega)
  · obtain ⟨x, rfl⟩ := eq_append_of_cut _h
    exact Prod.Lex.left _ _ (by simp only [List.length_append, List.length_cons]; omega)
  · exact Prod.Lex.right _ (by decide)
  · obtain ⟨x, rfl⟩ := eq_append_of_cut _h
    exact Prod.Lex.left _ _ (by simp only [List.length_append, List.length_cons]; omega)
  · obtain ⟨x, rfl⟩ := eq_append_of_cut _h
    exact Prod.Lex.left _ _ (by simp only [List.length_append, List.length_cons]; omega)
  · exact Prod.Lex.right _ (by decide)
  · exact Prod.Lex.left _ _ ((length_unwrap _h).trans_le (length_trim_le ls))

/-- The signs of a text, if every literal in it is closed. -/
def signsOf (text : String) : Option (List Sign) := (glyphs text).map signs

/-- Read a text as a tree of conditions, each given by its signs. -/
def read (text : String) : Option (Tree (List Sign) .disj) := (signsOf text).map (readAt .disj)

/-! ## Splitting what was joined -/

section

variable {sep : List Char → Bool} {d e : Nat} {ls : List Sign}

/-- A sign that a walk passes is not split at, and the walk goes on at the depth behind it. -/
lemma walk_cons {x : Sign} (h : walk sep d (x :: ls) = some e) :
    ¬(d = 0 ∧ x.isWordOf sep = true) ∧ walk sep (x.after d) ls = some e := by
  cases x with
  | leftParen => exact ⟨by simp [Sign.isWordOf], h⟩
  | rightParen =>
    cases d with
    | zero => cases h
    | succ d => exact ⟨by simp, h⟩
  | word w =>
    rw [walk] at h
    split at h
    · cases h
    · next hw => exact ⟨hw, h⟩
  | literal s => exact ⟨by simp [Sign.isWordOf], h⟩
  | other c => exact ⟨by simp [Sign.isWordOf], h⟩

/-- Where a walk passes, there is nothing to split at. -/
lemma cut_eq_none (h : walk sep d ls = some e) : cut sep d ls = none := by
  induction ls generalizing d with
  | nil => rfl
  | cons x ls ih =>
    obtain ⟨hx, hls⟩ := walk_cons h
    rw [cut, if_neg hx, ih hls]
    rfl

/-- Signs are split at the first separator behind a walk. -/
lemma cut_append (h : walk sep d ls = some 0) {w : List Char} (hw : sep w = true)
    (r : List Sign) : cut sep d (ls ++ .word w :: r) = some (ls, r) := by
  induction ls generalizing d with
  | nil =>
    obtain rfl := by simpa [walk] using h
    simp [cut, Sign.isWordOf, hw]
  | cons x ls ih =>
    obtain ⟨hx, hls⟩ := walk_cons h
    rw [List.cons_append, cut, if_neg hx, ih hls]
    rfl

end

/-! ## Blanks -/

/-- There are blanks only. -/
def Blank (ls : List Sign) : Prop := ∀ x ∈ ls, x.isBlank = true

lemma blank_nil : Blank [] := by simp [Blank]

/-- A space. -/
def space : List Sign := [.other ' ']

lemma blank_space : Blank space := by
  rintro x hx
  obtain rfl := List.mem_singleton.1 hx
  decide

lemma walk_blank {sep : List Char → Bool} {ls : List Sign} (h : Blank ls) (d : Nat) :
    walk sep d ls = some d := by
  induction ls with
  | nil => rfl
  | cons x ls ih =>
    have hx := h x (by simp)
    have hls := ih fun y hy => h y (by simp [hy])
    cases x with
    | other c => exact hls
    | _ => cases hx

lemma dropWhile_blank {us : List Sign} (h : Blank us) (vs : List Sign) :
    (us ++ vs).dropWhile Sign.isBlank = vs.dropWhile Sign.isBlank := by
  rw [List.dropWhile_append, if_pos]
  simpa [Blank] using h

lemma rdropWhile_blank {us : List Sign} (h : Blank us) (vs : List Sign) :
    (vs ++ us).rdropWhile Sign.isBlank = vs.rdropWhile Sign.isBlank := by
  have hrev : Blank us.reverse := fun x hx => h x (by simpa using hx)
  rw [List.rdropWhile, List.reverse_append, dropWhile_blank hrev]
  rfl

/-- Blanks around a text do not matter. -/
lemma trim_surround {us vs : List Sign} (hu : Blank us) (hv : Blank vs) (ls : List Sign) :
    trim (us ++ ls ++ vs) = trim ls := by
  rw [trim, List.append_assoc, dropWhile_blank hu, List.dropWhile_append, trim]
  split
  · next h =>
    -- nothing but blanks, which are dropped from the front together with those behind
    have hnil : ls.dropWhile Sign.isBlank = [] := by simpa using h
    have hvs : vs.dropWhile Sign.isBlank = [] := by simpa [Blank] using hv
    rw [hnil, hvs]
  · exact rdropWhile_blank hv _

lemma exists_eq_trim (ls : List Sign) :
    ∃ us vs, Blank us ∧ Blank vs ∧ ls = us ++ trim ls ++ vs := by
  refine ⟨ls.takeWhile Sign.isBlank, (ls.dropWhile Sign.isBlank).rtakeWhile Sign.isBlank,
    fun x hx => List.mem_takeWhile_imp hx, fun x hx => List.mem_rtakeWhile_imp hx, ?_⟩
  rw [trim, List.append_assoc, List.rdropWhile_append_rtakeWhile, List.takeWhile_append_dropWhile]

/-! ## Terms -/

/-- Some sign that is not blank stands outside of parentheses. -/
def bare : Nat → List Sign → Bool
  | _, [] => false
  | d, .leftParen :: r => bare (d + 1) r
  | d, .rightParen :: r => bare (d - 1) r
  | d, x :: r => d == 0 && !x.isBlank || bare d r

lemma bare_append {sep : List Char → Bool} {d e : Nat} {us : List Sign}
    (h : walk sep d us = some e) (vs : List Sign) :
    bare d (us ++ vs) = (bare d us || bare e vs) := by
  induction us generalizing d with
  | nil =>
    obtain rfl := by simpa [walk] using h
    rfl
  | cons x us ih =>
    have hus := ih (walk_cons h).2
    cases x with
    | leftParen => exact hus
    | rightParen => exact hus
    | _ => exact (congrArg (Bool.or _) hus).trans (Bool.or_assoc _ _ _).symm

lemma bare_of_append {d : Nat} {us : List Sign} (h : bare d us = true) (vs : List Sign) :
    bare d (us ++ vs) = true := by
  induction us generalizing d with
  | nil => cases h
  | cons x us ih =>
    cases x with
    | leftParen => exact ih h
    | rightParen => exact ih h
    | word w => rcases Bool.or_eq_true_iff.1 h with h | h <;> simp [bare, h, ih]
    | literal s => rcases Bool.or_eq_true_iff.1 h with h | h <;> simp [bare, h, ih]
    | other c => rcases Bool.or_eq_true_iff.1 h with h | h <;> simp [bare, h, ih]

lemma bare_blank {us : List Sign} (h : Blank us) (d : Nat) : bare d us = false := by
  induction us with
  | nil => rfl
  | cons x us ih =>
    have hx := h x (by simp)
    have hus := ih fun y hy => h y (by simp [hy])
    cases x with
    | other c => simp [bare, hx, hus]
    | _ => cases hx

/-- Nothing inside of parentheses stands outside of them. -/
lemma bare_inside {sep : List Char → Bool} {d e : Nat} {us : List Sign}
    (h : walk sep d us = some e) : bare (d + 1) us = false := by
  induction us generalizing d with
  | nil => rfl
  | cons x us ih =>
    cases x with
    | rightParen =>
      cases d with
      | zero => cases h
      | succ d => exact ih h
    | _ => exact ih (walk_cons h).2

lemma bare_append_blank {vs : List Sign} (h : Blank vs) (d : Nat) (ls : List Sign) :
    bare d (ls ++ vs) = bare d ls := by
  induction ls generalizing d with
  | nil => exact bare_blank h d
  | cons x ls ih => cases x <;> simp [bare, ih]

lemma bare_trim (ls : List Sign) : bare 0 (trim ls) = bare 0 ls := by
  obtain ⟨us, vs, hu, hv, heq⟩ := exists_eq_trim ls
  have hpre : bare 0 (us ++ trim ls) = bare 0 (trim ls) := by
    rw [bare_append (walk_blank hu 0 : walk isAnd 0 us = some 0), bare_blank hu, Bool.false_or]
  calc bare 0 (trim ls) = bare 0 (us ++ trim ls) := hpre.symm
    _ = bare 0 (us ++ trim ls ++ vs) := (bare_append_blank hv 0 _).symm
    _ = bare 0 ls := by rw [← heq]

/-- What is bare is not enclosed by a pair of parentheses. -/
lemma unwrap_eq_none {ls : List Sign} (h : bare 0 ls = true) : unwrap? ls = none := by
  unfold unwrap?
  split
  · next r =>
    rw [if_neg]
    rintro ⟨hlast, hwalk⟩
    -- all signs would be in the pair, or be the pair
    have hr := List.dropLast_append_getLast? _ hlast
    rw [← hr] at h
    have hinner : bare 1 (r.dropLast ++ [.rightParen]) = false := by
      rw [bare_append (walk_inside (fun _ => false) hwalk), bare_inside hwalk]
      rfl
    exact absurd (hinner.symm.trans h) (by decide)
  · rfl

/-- Parentheses around balanced signs are taken off. -/
lemma unwrap_parens {ls : List Sign} (h : walk (fun _ => false) 0 ls = some 0) :
    unwrap? (.leftParen :: (ls ++ [.rightParen])) = some ls := by
  simp [unwrap?, h]

lemma trim_parens (ls : List Sign) :
    trim (.leftParen :: (ls ++ [.rightParen])) = .leftParen :: (ls ++ [.rightParen]) := by
  rw [trim, List.dropWhile_cons_of_neg (by decide), ← List.cons_append,
    List.rdropWhile_concat_neg _ _ _ (by decide)]

/-! ## Reading what was written -/

/-- Two sequences of signs with a connective between them. -/
def joined (us : List Sign) (connective : List Char) (vs : List Sign) : List Sign :=
  us ++ space ++ .word connective :: (space ++ vs)

end Sql

namespace Filter.Tree

open Sql

variable {l : Level}

/-- The signs that a tree is written with. -/
def signs : {l : Level} → Tree (List Sign) l → List Sign
  | _, atom a => a
  | _, group d => .leftParen :: (d.signs ++ [.rightParen])
  | _, ofTerm t => t.signs
  | _, and t c => joined t.signs ['A', 'N', 'D'] c.signs
  | _, ofConj c => c.signs
  | _, or c d => joined c.signs ['O', 'R'] d.signs

end Filter.Tree

namespace Sql

open ContentFilter.Filter

/-- The words that may not stand outside of parentheses at a level. -/
def excluded : Level → List Char → Bool
  | .disj => fun _ => false
  | .conj => isOr
  | .term => isConnective

lemma isConnective_of_isAnd (w : List Char) (h : isAnd w = true) : isConnective w = true := by
  simp [isConnective, h]

lemma isConnective_of_isOr (w : List Char) (h : isOr w = true) : isConnective w = true := by
  simp [isConnective, h]

lemma walk_joined {sep : List Char → Bool} {us vs : List Sign} {connective : List Char}
    (hu : walk sep 0 us = some 0) (hc : sep connective = false) (hv : walk sep 0 vs = some 0) :
    walk sep 0 (joined us connective vs) = some 0 := by
  simp [joined, walk_append, walk, walk_blank blank_space, hu, hc, hv]

/-- The signs of a tree keep the connectives of weaker levels inside of parentheses, as its atoms
do. -/
lemma walk_signs {l : Level} (t : Tree (List Sign) l)
    (h : ∀ a ∈ t.atoms, walk isConnective 0 a = some 0) :
    walk (excluded l) 0 t.signs = some 0 := by
  have hfalse : ∀ (sep : List Char → Bool) (w : List Char), false = true → sep w = true :=
    fun sep w hw => absurd hw (by decide)
  induction t with
  | atom a => exact h a (by simp [Tree.atoms])
  | group d ih => simp [Tree.signs, walk, walk_append, walk_inside _ (ih h)]
  | ofTerm t ih => exact walk_weaken isConnective_of_isOr (ih h)
  | and t c iht ihc =>
    have ht := iht fun a ha => h a (List.mem_append_left _ ha)
    have hc := ihc fun a ha => h a (List.mem_append_right _ ha)
    exact walk_joined (walk_weaken isConnective_of_isOr ht)
      (by decide) hc
  | ofConj c ih => exact walk_weaken (hfalse _) (ih h)
  | or c d ihc ihd =>
    have hc := ihc fun a ha => h a (List.mem_append_left _ ha)
    have hd := ihd fun a ha => h a (List.mem_append_right _ ha)
    exact walk_joined (walk_weaken (hfalse _) hc) (by decide) hd

section

variable {us vs ls : List Sign}

lemma readAt_of_cut_or (h : cut isOr 0 ls = some (us, vs)) :
    readAt .disj ls = .or (readAt .conj us) (readAt .disj vs) := by
  conv_lhs => rw [readAt]
  split
  · next heq =>
    obtain ⟨rfl, rfl⟩ := Prod.mk.inj (Option.some.inj (h.symm.trans heq))
    rfl
  · next heq => cases h.symm.trans heq

lemma readAt_of_no_or (h : cut isOr 0 ls = none) : readAt .disj ls = .ofConj (readAt .conj ls) := by
  rw [readAt]
  split
  · next heq => cases h.symm.trans heq
  · rfl

lemma readAt_of_cut_and (h : cut isAnd 0 ls = some (us, vs)) :
    readAt .conj ls = .and (readAt .term us) (readAt .conj vs) := by
  conv_lhs => rw [readAt]
  split
  · next heq =>
    obtain ⟨rfl, rfl⟩ := Prod.mk.inj (Option.some.inj (h.symm.trans heq))
    rfl
  · next heq => cases h.symm.trans heq

lemma readAt_of_no_and (h : cut isAnd 0 ls = none) :
    readAt .conj ls = .ofTerm (readAt .term ls) := by
  rw [readAt]
  split
  · next heq => cases h.symm.trans heq
  · rfl

lemma readAt_of_unwrap (h : unwrap? (trim ls) = some us) :
    readAt .term ls = .group (readAt .disj us) := by
  conv_lhs => rw [readAt]
  split
  · next heq =>
    obtain rfl := Option.some.inj (h.symm.trans heq)
    rfl
  · next heq => cases h.symm.trans heq

lemma readAt_of_no_unwrap (h : unwrap? (trim ls) = none) : readAt .term ls = .atom (trim ls) := by
  rw [readAt]
  split
  · next heq => cases h.symm.trans heq
  · rfl

/-- Blanks around signs do not keep a walk from passing. -/
lemma walk_surround {sep : List Char → Bool} (hu : Blank us) (hv : Blank vs)
    (h : walk sep 0 ls = some 0) : walk sep 0 (us ++ ls ++ vs) = some 0 := by
  simp [walk_append, walk_blank hu, walk_blank hv, h]

end

/-- A tree whose atoms are contained and bare is read as it was written, up to the blanks around
its atoms. -/
theorem readAt_signs {l : Level} (t : Tree (List Sign) l)
    (h : ∀ a ∈ t.atoms, walk isConnective 0 a = some 0 ∧ bare 0 a = true) {us vs : List Sign}
    (hu : Blank us) (hv : Blank vs) : readAt l (us ++ t.signs ++ vs) = t.map trim := by
  -- the blanks are generalized, as a subtree takes over those around the connective beside it
  induction t generalizing us vs with
  | atom a =>
    obtain ⟨-, hbare⟩ := h a (by simp [Tree.atoms])
    have hnone : unwrap? (trim (us ++ a ++ vs)) = none := by
      rw [trim_surround hu hv]
      exact unwrap_eq_none ((bare_trim a).trans hbare)
    rw [Tree.signs, readAt_of_no_unwrap hnone, trim_surround hu hv]
    rfl
  | group d ih =>
    have hwalk := walk_signs d fun a ha => (h a ha).1
    have hsome : unwrap? (trim (us ++ (Tree.group d).signs ++ vs)) = some d.signs := by
      rw [trim_surround hu hv, Tree.signs, trim_parens]
      exact unwrap_parens hwalk
    have hd := ih h blank_nil blank_nil
    rw [List.nil_append, List.append_nil] at hd
    rw [readAt_of_unwrap hsome, hd]
    rfl
  | ofTerm t ih =>
    have hwalk := walk_signs t fun a ha => (h a ha).1
    have hand : walk isAnd 0 t.signs = some 0 :=
      walk_weaken isConnective_of_isAnd hwalk
    rw [Tree.signs, readAt_of_no_and (cut_eq_none (walk_surround hu hv hand)), ih h hu hv]
    rfl
  | and t c iht ihc =>
    have ht := fun a ha => h a (List.mem_append_left _ ha)
    have hc := fun a ha => h a (List.mem_append_right _ ha)
    have hand : walk isAnd 0 t.signs = some 0 :=
      walk_weaken isConnective_of_isAnd (walk_signs t fun a ha => (ht a ha).1)
    -- the first subtree has no connective of this level, so the first one is the one behind it
    have hcut := cut_append (walk_surround hu blank_space hand) (w := ['A', 'N', 'D']) (by decide)
      (space ++ c.signs ++ vs)
    have heq : us ++ (Tree.and t c).signs ++ vs =
        us ++ t.signs ++ space ++ .word ['A', 'N', 'D'] :: (space ++ c.signs ++ vs) := by
      simp [Tree.signs, joined]
    rw [heq, readAt_of_cut_and hcut, iht ht hu blank_space, ihc hc blank_space hv]
    rfl
  | ofConj c ih =>
    have hwalk := walk_signs c fun a ha => (h a ha).1
    rw [Tree.signs, readAt_of_no_or (cut_eq_none (walk_surround hu hv hwalk)), ih h hu hv]
    rfl
  | or c d ihc ihd =>
    have hc := fun a ha => h a (List.mem_append_left _ ha)
    have hd := fun a ha => h a (List.mem_append_right _ ha)
    have hor := walk_signs c fun a ha => (hc a ha).1
    have hcut := cut_append (walk_surround hu blank_space hor) (w := ['O', 'R']) (by decide)
      (space ++ d.signs ++ vs)
    have heq : us ++ (Tree.or c d).signs ++ vs =
        us ++ c.signs ++ space ++ .word ['O', 'R'] :: (space ++ d.signs ++ vs) := by
      simp [Tree.signs, joined]
    rw [heq, readAt_of_cut_or hcut, ihc hc hu blank_space, ihd hd blank_space hv]
    rfl

end Sql
end ContentFilter
