import ContentFilter.Proofs.Sql.Glyph
import Mathlib.Data.List.Forall2
/-!
# Texts of SQL that differ in their literals only

Two texts are the same outside of literals if, taken apart, they have the same characters and
literals at the same places.  Templates are similar if they have the same code and literals and
holes at the same places; filled with the same names they give such texts
(`Template.Similar.sameOutside`).  If moreover their literals are equal, the texts are
(`Template.Similar.fill_eq`), since the values of holes are not part of the text.
-/

namespace ContentFilter

namespace Sql

/-- The glyph with nothing in it, if it is a literal. -/
def Glyph.hollow : Glyph → Glyph
  | code c => .code c
  | literal _ => .literal []

/-- All literals in the two texts are closed, and with their contents taken out the texts are the
same: they have equally many literals, with the same code before, between and behind them. -/
def SameOutside (x y : String) : Prop :=
  ∃ gs hs, glyphs x = some gs ∧ glyphs y = some hs ∧ gs.map Glyph.hollow = hs.map Glyph.hollow

end Sql

/-- Pieces of the same sort: equal code, literals that are equal if `exact`, or holes. -/
inductive Piece.Similar (exact : Prop) : Piece → Piece → Prop
  | code (x : String) : Similar exact (.code x) (.code x)
  | literal {x y : String} (h : exact → x = y) : Similar exact (.literal x) (.literal y)
  | hole (v w : Scalar) : Similar exact (.hole v) (.hole w)

namespace Template

/-- Templates with similar pieces. -/
def Similar (exact : Prop) (t u : Template) : Prop := List.Forall₂ (Piece.Similar exact) t u

namespace Similar

variable {exact : Prop} {t t' u u' : Template}

lemma refl (t : Template) : Similar exact t t := by
  refine List.forall₂_same.2 fun p _ => ?_
  cases p with
  | code x => exact .code x
  | literal x => exact .literal fun _ => rfl
  | hole v => exact .hole v v

lemma code {x : String} (h : Similar exact t u) : Similar exact (.code x :: t) (.code x :: u) :=
  .cons (.code x) h

lemma append (h : Similar exact t u) (h' : Similar exact t' u') :
    Similar exact (t ++ t') (u ++ u') :=
  List.rel_append h h'

/-- The glyphs of similar templates are the same outside of literals. -/
lemma hollow_glyphs (h : Similar exact t u) (c : Counter) :
    (t.glyphs c).map Sql.Glyph.hollow = (u.glyphs c).map Sql.Glyph.hollow := by
  induction h generalizing c with
  | nil => rfl
  | cons hp _ ih => cases hp <;> simp [glyphs, ih, Sql.Glyph.hollow]

/-- Similar templates are filled to texts that are the same outside of literals, if they take the
same names. -/
theorem sameOutside (h : Similar exact t u) (ht : t.Spaced) (hu : u.Spaced) {s s' : Sink}
    (hs : s.counter = s'.counter) : Sql.SameOutside (t.fill s).1 (u.fill s').1 :=
  ⟨_, _, glyphs_fill ht s, glyphs_fill hu s', by rw [← hs, h.hollow_glyphs]⟩

/-- Templates that differ in the values of their holes only are filled to the same text. -/
theorem fill_eq (h : Similar exact t u) (he : exact) {s s' : Sink}
    (hs : s.counter = s'.counter) : (t.fill s).1 = (u.fill s').1 := by
  induction h generalizing s s' with
  | nil => rfl
  | cons hp _ ih =>
    cases hp with
    | code x => simp only [fill, ih hs]
    | literal heq => simp only [fill, ih hs, heq he]
    | hole v w =>
      have hnext : (s.add v).2.counter = (s'.add w).2.counter := by simp only [Sink.add, hs]
      have hname : (s.add v).1 = (s'.add w).1 := by simp only [Sink.add, hs]
      simp only [fill, ih hnext, hname]

end Similar
end Template
end ContentFilter
