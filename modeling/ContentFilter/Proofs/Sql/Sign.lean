import ContentFilter.Proofs.Sql.Glyph
import Mathlib.Algebra.Order.Ring.Int
import Mathlib.Data.List.Basic
/-!
# Words and parentheses in SQL

The glyphs of a text of SQL, read as signs: parentheses, words, literals and single characters.
Words are as long as possible, and `AND` and `OR` are words of their own in any case.

A sequence of signs is balanced if its parentheses are, at the end and at every place before; it
is contained if moreover no `AND` and no `OR` stands outside of all parentheses.  Contained text
stays together when it is joined with others by these connectives.  `walk` follows the depth of
the parentheses through the signs, and gives up where a word from a given class stands at depth
zero; it decides both properties (`walk_eq_some_iff`) and goes through joined sequences one after
the other (`walk_append`).
-/

namespace ContentFilter
namespace Sql

/-- A sign in a text of SQL. -/
inductive Sign where
  | leftParen
  | rightParen
  /-- A keyword, a name or a number. -/
  | word (w : List Char)
  /-- A literal, by the text it stands for. -/
  | literal (content : List Char)
  /-- Any other character. -/
  | other (c : Char)
deriving DecidableEq, Repr

namespace Sign

/-- The sign of a character that is not part of a word. -/
def ofChar (c : Char) : Sign :=
  if c = '(' then leftParen else if c = ')' then rightParen else other c

/-- A blank between other signs. -/
def isBlank : Sign → Bool
  | other c => c.isWhitespace
  | _ => false

/-- What a sign adds to the depth of the parentheses. -/
def weight : Sign → Int
  | leftParen => 1
  | rightParen => -1
  | _ => 0

end Sign

/-- The word that was read, unless there is none. -/
def wordSign (w : List Char) : List Sign := if w.isEmpty then [] else [.word w]

/-- The signs of some glyphs, given the beginning of the word that may go on with them. -/
def signsFrom (w : List Char) : List Glyph → List Sign
  | [] => wordSign w
  | .code c :: r =>
    if isWordChar c then signsFrom (w ++ [c]) r
    else wordSign w ++ Sign.ofChar c :: signsFrom [] r
  | .literal s :: r => wordSign w ++ .literal s :: signsFrom [] r

/-- The signs of some glyphs. -/
def signs (gs : List Glyph) : List Sign := signsFrom [] gs

lemma signsFrom_word (w : List Char) {cs : List Char} (h : ∀ c ∈ cs, isWordChar c = true) :
    signsFrom w (cs.map .code) = wordSign (w ++ cs) := by
  induction cs generalizing w with
  | nil => simp [signsFrom]
  | cons c cs ih =>
    rw [List.map_cons, signsFrom, if_pos (h c List.mem_cons_self),
      ih (w ++ [c]) fun x hx => h x (List.mem_cons_of_mem c hx), List.append_assoc]
    rfl

/-- The characters of a word are one sign. -/
lemma signs_word {cs : List Char} (hne : cs ≠ []) (h : ∀ c ∈ cs, isWordChar c = true) :
    signs (cs.map .code) = [.word cs] := by
  rw [signs, signsFrom_word [] h, List.nil_append, wordSign, if_neg (by simpa using hne)]

/-! ## Where the signs of joined glyphs are joined signs -/

/-- No word goes on with these glyphs. -/
def Delimited (gs : List Glyph) : Prop := ∀ c r, gs = .code c :: r → isWordChar c = false

/-- The glyphs do not end within a word. -/
def Finished (gs : List Glyph) : Prop :=
  ∀ c, gs.getLast? = some (.code c) → isWordChar c = false

lemma signsFrom_of_delimited (w : List Char) {gs : List Glyph} (h : Delimited gs) :
    signsFrom w gs = wordSign w ++ signs gs := by
  match gs, h with
  | [], _ => simp [signs, signsFrom, wordSign]
  | .code c :: r, h => simp [signs, signsFrom, h c r rfl, wordSign]
  | .literal s :: r, _ => simp [signs, signsFrom, wordSign]

lemma signsFrom_append (w : List Char) (xs : List Glyph) {ys : List Glyph} (h : Delimited ys) :
    signsFrom w (xs ++ ys) = signsFrom w xs ++ signs ys := by
  induction xs generalizing w with
  | nil => simpa [signsFrom] using signsFrom_of_delimited w h
  | cons g xs ih =>
    cases g with
    | code c =>
      simp only [List.cons_append, signsFrom]
      split
      · exact ih _
      · simp [ih]
    | literal s => simp [signsFrom, ih]

lemma signs_append_of_delimited (xs : List Glyph) {ys : List Glyph} (h : Delimited ys) :
    signs (xs ++ ys) = signs xs ++ signs ys :=
  signsFrom_append [] xs h

lemma signs_append_of_finished {xs : List Glyph} (h : Finished xs) (ys : List Glyph) :
    signs (xs ++ ys) = signs xs ++ signs ys := by
  rcases List.eq_nil_or_concat' xs with rfl | ⟨zs, g, rfl⟩
  · simp [signs, signsFrom, wordSign]
  · cases g with
    | code c =>
      have hc : isWordChar c = false := h c (by simp)
      have hone : ∀ r, Delimited (.code c :: r) := by
        rintro r d r' heq
        obtain ⟨rfl, -⟩ := by simpa using heq
        exact hc
      have hsplit := signs_append_of_delimited zs (hone ys)
      rw [signs_append_of_delimited zs (hone [])]
      simpa [signs, signsFrom, hc, wordSign] using hsplit
    | literal s =>
      have hone : ∀ r, Delimited (.literal s :: r) := by
        rintro r d r' heq
        simp at heq
      have hsplit := signs_append_of_delimited zs (hone ys)
      rw [signs_append_of_delimited zs (hone [])]
      simpa [signs, signsFrom, wordSign] using hsplit

/-! ## Depth -/

/-- The number of parentheses that are opened and not closed. -/
def depth : List Sign → Int
  | [] => 0
  | x :: r => x.weight + depth r

/-- The word `AND`, in any case. -/
def isAnd (w : List Char) : Bool := w.map Char.toLower == ['a', 'n', 'd']

/-- The word `OR`, in any case. -/
def isOr (w : List Char) : Bool := w.map Char.toLower == ['o', 'r']

/-- The words that join conditions. -/
def isConnective (w : List Char) : Bool := isAnd w || isOr w

/-- As many parentheses are closed as are opened, and at no place more than were opened. -/
structure Balanced (ls : List Sign) : Prop where
  depth_eq_zero : depth ls = 0
  depth_nonneg : ∀ us vs, ls = us ++ vs → 0 ≤ depth us

/-- The parentheses are balanced, and all connectives stand inside of them. -/
structure Contained (ls : List Sign) : Prop extends Balanced ls where
  connective_inside : ∀ us w vs, ls = us ++ .word w :: vs → isConnective w = true → depth us ≠ 0

/-! ## Following the depth -/

/-- Follow the depth of the parentheses, from a given one.  No parenthesis may close that is not
open, and no word of the class `sep` may stand at depth zero. -/
def walk (sep : List Char → Bool) : Nat → List Sign → Option Nat
  | d, [] => some d
  | d, .leftParen :: r => walk sep (d + 1) r
  | 0, .rightParen :: _ => none
  | d + 1, .rightParen :: r => walk sep d r
  | d, .word w :: r => if d = 0 ∧ sep w = true then none else walk sep d r
  | d, .literal _ :: r => walk sep d r
  | d, .other _ :: r => walk sep d r

variable {sep : List Char → Bool}

lemma walk_append (d : Nat) (xs ys : List Sign) :
    walk sep d (xs ++ ys) = (walk sep d xs).bind fun e => walk sep e ys := by
  fun_induction walk sep d xs with
  | case1 => rfl
  | case2 d r ih => simpa [walk] using ih
  | case3 => simp [walk]
  | case4 d r ih => simpa [walk] using ih
  | case5 d w r h => simp [walk, h]
  | case6 d w r h ih => simpa [walk, h] using ih
  | case7 d s r ih => simpa [walk] using ih
  | case8 d c r ih => simpa [walk] using ih

/-- A walk succeeds as well with fewer words excluded, or deeper inside of parentheses, where no
word is. -/
lemma walk_shift {sep' : List Char → Bool} {d e : Nat} {ls : List Sign} (k : Nat)
    (hsep : k = 0 → ∀ w, sep' w = true → sep w = true) (h : walk sep d ls = some e) :
    walk sep' (d + k) ls = some (e + k) := by
  fun_induction walk sep d ls with
  | case1 => simpa [walk] using h
  | case2 d r ih => simpa [walk, Nat.add_right_comm d k 1] using ih h
  | case3 => cases h
  | case4 d r ih => simpa [walk, Nat.add_right_comm d 1 k] using ih h
  | case5 => cases h
  | case6 d w r hw ih =>
    have hk : ¬(d + k = 0 ∧ sep' w = true) := by
      rintro ⟨hd, hs⟩
      exact hw ⟨by omega, hsep (by omega) w hs⟩
    rw [walk, if_neg hk]
    exact ih h
  | case7 d s r ih => simpa [walk] using ih h
  | case8 d c r ih => simpa [walk] using ih h

lemma walk_add {d e : Nat} {ls : List Sign} (h : walk sep d ls = some e) (k : Nat) :
    walk sep (d + k) ls = some (e + k) :=
  walk_shift k (fun _ _ hw => hw) h

lemma walk_weaken {sep' : List Char → Bool} (hsep : ∀ w, sep' w = true → sep w = true)
    {d e : Nat} {ls : List Sign} (h : walk sep d ls = some e) : walk sep' d ls = some e :=
  walk_shift 0 (fun _ => hsep) h

/-- No word is excluded inside of parentheses. -/
lemma walk_inside (sep' : List Char → Bool) {d e : Nat} {ls : List Sign}
    (h : walk sep d ls = some e) : walk sep' (d + 1) ls = some (e + 1) :=
  walk_shift 1 (fun hk => absurd hk (by decide)) h

/-- To go through the places in a sequence is to look at its start and then to go through the
rest. -/
lemma forall_place_cons {P : List Sign → List Sign → Prop} {x : Sign} {r : List Sign} :
    (∀ us vs, x :: r = us ++ vs → P us vs) ↔
      P [] (x :: r) ∧ ∀ us vs, r = us ++ vs → P (x :: us) vs := by
  constructor
  · intro h
    exact ⟨h [] _ rfl, fun us vs huv => h (x :: us) vs (by rw [huv]; rfl)⟩
  · rintro ⟨h₁, h₂⟩ us vs huv
    cases us with
    | nil => exact (List.nil_append vs ▸ huv) ▸ h₁
    | cons y us =>
      obtain ⟨rfl, htail⟩ := List.cons.inj huv
      exact h₂ us vs htail

/-- What a walk checks at a place: the depth there, and the word that stands behind it. -/
def Passable (sep : List Char → Bool) (d : Int) (vs : List Sign) : Prop :=
  0 ≤ d ∧ ∀ w r, vs = .word w :: r → sep w = true → d ≠ 0

/-- A walk succeeds if it can pass every place, and ends at the depth of the end. -/
theorem walk_eq_some_iff {d e : Nat} {ls : List Sign} :
    walk sep d ls = some e ↔
      d + depth ls = e ∧ ∀ us vs, ls = us ++ vs → Passable sep (d + depth us) vs := by
  induction ls generalizing d with
  | nil =>
    simp only [walk, Option.some.injEq, depth, Int.add_zero, Nat.cast_inj, List.nil_eq,
      List.append_eq_nil_iff]
    refine ⟨fun h => ⟨h, ?_⟩, fun h => h.1⟩
    rintro us vs ⟨rfl, rfl⟩
    exact ⟨by simp [depth], by simp⟩
  | cons x r ih =>
    -- the walk checks the place in front of the first sign and leaves the others to the rest
    rw [forall_place_cons]
    simp only [depth, Int.add_zero]
    cases x with
    | leftParen =>
      have hadd : ∀ z : Int, (d : Int) + (1 + z) = ((d + 1 : Nat) : Int) + z := by
        intro z
        omega
      have hstart : Passable sep d (.leftParen :: r) := by simp [Passable]
      simp only [walk, ih, Sign.weight, hadd, hstart, true_and]
    | rightParen =>
      cases d with
      | zero =>
        simp only [walk, reduceCtorEq, false_iff]
        rintro ⟨-, -, h⟩
        -- behind this parenthesis the depth would be negative
        have hend := (h [] r rfl).1
        simp [depth, Sign.weight] at hend
      | succ d =>
        have hadd : ∀ z : Int, ((d + 1 : Nat) : Int) + (-1 + z) = (d : Int) + z := by
          intro z
          omega
        have hstart : Passable sep (d + 1 : Nat) (.rightParen :: r) := by
          simp [Passable]
          omega
        simp only [walk, ih, Sign.weight, hadd, hstart, true_and]
    | word w =>
      have hstart : Passable sep d (.word w :: r) ↔ ¬(d = 0 ∧ sep w = true) := by
        simp only [Passable]
        grind
      simp only [walk, hstart, Sign.weight, Int.zero_add]
      split
      · next h => simp [h]
      · next h => simp [ih, h]
    | literal s =>
      have hstart : Passable sep d (.literal s :: r) := by simp [Passable]
      simp only [walk, ih, Sign.weight, Int.zero_add, hstart, true_and]
    | other c =>
      have hstart : Passable sep d (.other c :: r) := by simp [Passable]
      simp only [walk, ih, Sign.weight, Int.zero_add, hstart, true_and]

/-- The sequences that are contained are those which a walk passes that excludes connectives. -/
theorem contained_iff {ls : List Sign} : Contained ls ↔ walk isConnective 0 ls = some 0 := by
  rw [walk_eq_some_iff]
  simp only [Nat.cast_zero, Int.zero_add]
  constructor
  · exact fun h => ⟨h.depth_eq_zero, fun us vs huv => ⟨h.depth_nonneg us vs huv,
      fun w r hvs => h.connective_inside us w r (hvs ▸ huv)⟩⟩
  · rintro ⟨hdepth, h⟩
    exact ⟨⟨hdepth, fun us vs huv => (h us vs huv).1⟩,
      fun us w r huv => (h us _ huv).2 w r rfl⟩

/-- The sequences that are balanced are those which a walk passes that excludes no word. -/
theorem balanced_iff {ls : List Sign} : Balanced ls ↔ walk (fun _ => false) 0 ls = some 0 := by
  rw [walk_eq_some_iff]
  simp only [Nat.cast_zero, Int.zero_add]
  constructor
  · exact fun h => ⟨h.depth_eq_zero, fun us vs huv => ⟨h.depth_nonneg us vs huv, by simp⟩⟩
  · exact fun h => ⟨h.1, fun us vs huv => (h.2 us vs huv).1⟩

end Sql
end ContentFilter
