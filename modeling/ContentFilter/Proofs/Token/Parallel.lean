import ContentFilter.Proofs.Outcome
import ContentFilter.Token.Bracketed
import ContentFilter.Builtins
import Mathlib.Data.Option.Basic
import Mathlib.Tactic.SplitIfs
/-!
# Tokens and their counterparts

Two token sequences side by side.  What a filter makes of a token depends on the kind and the group
of the token, on its lexeme unless it is a list, on the items of a list, and on the column of a
builtin.  Tokens that agree in these are counterparts (`Token.Counterpart`).  Whether their places
agree as well is left open by a parameter `placed`: two sources may have the same words at different
places.

Folding brackets keeps counterparts, or refuses both sides for the same cause, at the same place if
places agree (`Token.foldBrackets_rel`).
-/

namespace ContentFilter

open Except (Rel)

/-- The faults have the same cause, and concern the same place if places agree. -/
structure Flagged.Agrees {γ : Type} (placed : Prop) (e e' : Flagged γ) : Prop where
  cause_eq : e.cause = e'.cause
  mark_eq : placed → e.mark = e'.mark

lemma Flagged.Agrees.map {γ δ : Type} {placed : Prop} {e e' : Flagged γ} (h : e.Agrees placed e')
    (f : γ → δ) : (e.map f).Agrees placed (e'.map f) :=
  ⟨congrArg f h.cause_eq, h.mark_eq⟩

namespace Token

variable {placed : Prop} {b b' : Builtins} {t u : Token} {source source' : String}

/-- The tokens are of the same kind with the same lexeme, and have the same place if places
agree. -/
structure SameWord (placed : Prop) (t u : Token) : Prop where
  kind_eq : t.kind = u.kind
  lexeme_eq : t.lexeme = u.lexeme
  span_eq : placed → t.span = u.span

/-- The tokens agree in all that a condition depends on, each in the context of its builtins. -/
structure Counterpart (placed : Prop) (b b' : Builtins) (t u : Token) : Prop where
  kind_eq : t.kind = u.kind
  group_eq : t.group = u.group
  span_eq : placed → t.span = u.span
  /-- The lexeme of a list is cut out of the source, with the gaps in it. -/
  lexeme_eq : t.kind ≠ .list → t.lexeme = u.lexeme
  items : List.Forall₂ (SameWord placed) t.items u.items
  column_eq : t.kind = .builtin → b.column? t.lexeme = b'.column? u.lexeme

lemma SameWord.refl (t : Token) : SameWord placed t t := ⟨rfl, rfl, fun _ => rfl⟩

/-- A token is its own counterpart, if the two sides agree on the column of a builtin. -/
lemma Counterpart.of_column (h : t.kind = .builtin → b.column? t.lexeme = b'.column? t.lexeme) :
    Counterpart placed b b' t t :=
  ⟨rfl, rfl, fun _ => rfl, fun _ => rfl, List.forall₂_same.2 fun i _ => .refl i, h⟩

/-- Tokens are counterparts of themselves if the two sides agree on the builtins among them. -/
lemma rel_self {γ : Type} {x : Except (Flagged γ) (List Token)}
    (h : ∀ ts, x = .ok ts → ∀ t ∈ ts, t.kind = .builtin →
      b.column? t.lexeme = b'.column? t.lexeme) :
    Rel (Flagged.Agrees placed) (List.Forall₂ (Counterpart placed b b')) x x := by
  cases x with
  | error e => exact .error ⟨rfl, fun _ => rfl⟩
  | ok ts => exact .ok (List.forall₂_same.2 fun t ht => .of_column (h ts rfl t ht))

lemma Counterpart.flag_agrees {γ : Type} (h : Counterpart placed b b' t u) (cause : γ) :
    (t.flag cause).Agrees placed (u.flag cause) :=
  ⟨rfl, fun hp => congrArg Mark.span (h.span_eq hp)⟩

/-- Tokens other than lists that are counterparts are the same word. -/
lemma Counterpart.sameWord (h : Counterpart placed b b' t u) (hk : t.kind ≠ .list) :
    SameWord placed t u := ⟨h.kind_eq, h.lexeme_eq hk, h.span_eq⟩

/-! ## Folding -/

/-- The open lists have the same words, and open at the same place if places agree. -/
structure OpenList.InStep (placed : Prop) (o o' : OpenList) : Prop where
  span_eq : placed → o.bracket.span = o'.bracket.span
  read : List.Forall₂ (SameWord placed) o.read o'.read

lemma OpenList.close_rel {o o' : OpenList} (ho : o.InStep placed o')
    (h : Counterpart placed b b' t u) :
    Rel (Flagged.Agrees placed) (Counterpart placed b b') (o.close source t)
      (o'.close source' u) := by
  have hspan : placed → o.bracket.span.upTo t.span = o'.bracket.span.upTo u.span := fun hp => by
    rw [ho.span_eq hp, h.span_eq hp]
  unfold close
  simp only [← List.isEmpty_eq_of_forall₂ ho.read]
  split_ifs
  · exact .error ⟨rfl, fun hp => congrArg Mark.span (hspan hp)⟩
  · refine .ok ⟨rfl, rfl, hspan, fun hk => absurd rfl hk, ?_, fun hk => by cases hk⟩
    exact List.rel_reverse ho.read

lemma OpenList.push_rel {o o' : OpenList} (ho : o.InStep placed o')
    (h : Counterpart placed b b' t u) :
    Rel (Flagged.Agrees placed) (OpenList.InStep placed) (o.push t) (o'.push u) := by
  unfold push
  rw [← h.group_eq, ← h.kind_eq]
  split_ifs with _ hs
  · exact .error (h.flag_agrees _)
  · exact .error (h.flag_agrees _)
  · have hk : t.kind ≠ .list := fun hk => hs (by rw [hk]; rfl)
    exact .ok ⟨ho.span_eq, .cons (h.sameWord hk) ho.read⟩

/-- Counterparts are folded into counterparts, from open lists with the same words. -/
lemma foldFrom_rel {o o' : Option OpenList} {ts us : List Token}
    (ho : Option.Rel (OpenList.InStep placed) o o')
    (h : List.Forall₂ (Counterpart placed b b') ts us) :
    Rel (Flagged.Agrees placed) (List.Forall₂ (Counterpart placed b b')) (foldFrom source o ts)
      (foldFrom source' o' us) := by
  induction h generalizing o o' with
  | nil =>
    cases ho with
    | none => exact .ok .nil
    | some ho => exact .error ⟨rfl, fun hp => congrArg Mark.span (ho.span_eq hp)⟩
  | @cons t u ts us ht _ ih =>
    cases ho with
    | none =>
      unfold foldFrom
      rw [← ht.group_eq]
      have hkeep := (ih .none).bind fun _ _ htail => Rel.ok (List.Forall₂.cons ht htail)
      cases t.group with
      | leftBracket => exact ih (.some ⟨ht.span_eq, .nil⟩)
      | rightBracket => exact .error (ht.flag_agrees _)
      | _ => exact hkeep
    | some ho =>
      unfold foldFrom
      rw [← ht.group_eq]
      have hpush := (OpenList.push_rel ho ht).bind fun _ _ ho => ih (.some ho)
      cases t.group with
      | leftBracket => exact .error (ht.flag_agrees _)
      | rightBracket =>
        exact (OpenList.close_rel ho ht).bind fun _ _ hlist =>
          (ih .none).bind fun _ _ htail => .ok (.cons hlist htail)
      | _ => exact hpush

/-- Counterparts are folded into counterparts, or refused on both sides. -/
theorem foldBrackets_rel {ts us : List Token} (h : List.Forall₂ (Counterpart placed b b') ts us) :
    Rel (Flagged.Agrees placed) (List.Forall₂ (Counterpart placed b b'))
      (foldBrackets source ts) (foldBrackets source' us) :=
  foldFrom_rel .none h

end Token
end ContentFilter
