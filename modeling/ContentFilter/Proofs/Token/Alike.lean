import ContentFilter.Proofs.Token.Source
import Mathlib.Data.List.Forall2
/-!
# Filters of one form

Two token sequences have one form if they have the same kinds in the same order and the same
lexemes, with three exceptions: strings may differ, fields may differ but for the number of their
segments and their wildcard, and locales of paths may differ (`Token.Akin`).  Folding the brackets
of such sequences gives such sequences again, with lists whose items are pairwise akin
(`Token.Folds.alike`).
-/

namespace ContentFilter
namespace Token

/-- Tokens of one kind that differ in a string, in a field or in the locale of a path only.  If
`exact` is set, fields do not differ. -/
def Akin (exact : Prop) (t u : Token) : Prop :=
  t.kind = u.kind ∧
    match t.kind with
    | .string => True
    | .field => t.lexeme = u.lexeme ∨ ¬exact ∧ ∃ f g, FieldPath.ofText? t.lexeme = some f ∧
        FieldPath.ofText? u.lexeme = some g ∧ f.segments.length = g.segments.length ∧
        f.wildcard = g.wildcard
    | .path => t.lexeme = u.lexeme ∨
        ∃ l m, Condition.localeOf t = .ok (some l) ∧ Condition.localeOf u = .ok (some m)
    | _ => t.lexeme = u.lexeme

/-- Tokens of a filter with its lists folded that are akin, or lists of tokens that are. -/
inductive Alike (b : Builtins) (exact : Prop) : Token → Token → Prop
  | lexeme {t u : Token} : IsLexeme b t → IsLexeme b u → Akin exact t u → Alike b exact t u
  | list {ts us : List Token} (span span' : Span) (lexeme lexeme' : String) :
      List.Forall₂ (Akin exact) ts us →
      Alike b exact (ofItems span lexeme ts) (ofItems span' lexeme' us)

variable {b : Builtins} {exact : Prop} {t u : Token}

lemma Alike.kind_eq (h : Alike b exact t u) : t.kind = u.kind := by
  cases h with
  | lexeme _ _ h => exact h.1
  | list => rfl

lemma Alike.group_eq (h : Alike b exact t u) : t.group = u.group := by
  cases h with
  | lexeme ht hu h =>
    rw [FromSource.group_eq (.inl ht), FromSource.group_eq (.inl hu), h.1]
  | list => rfl

lemma Alike.length_items (h : Alike b exact t u) : t.items.length = u.items.length := by
  cases h with
  | lexeme ht hu _ =>
    obtain ⟨_, _, _, _, -, rfl⟩ := ht
    obtain ⟨_, _, _, _, -, rfl⟩ := hu
    rfl
  | list _ _ _ _ h => exact h.length_eq

/-- Tokens that are not lists are akin. -/
lemma Alike.akin (h : Alike b exact t u) (hk : t.kind ≠ .list) : Akin exact t u := by
  cases h with
  | lexeme _ _ h => exact h
  | list => exact absurd rfl hk

/-- Lexemes that are akin. -/
def Twins (b : Builtins) (exact : Prop) (t u : Token) : Prop :=
  IsLexeme b t ∧ IsLexeme b u ∧ Akin exact t u

lemma Twins.alike (h : Twins b exact t u) : Alike b exact t u := .lexeme h.1 h.2.1 h.2.2

/-- Folding keeps the form of a token sequence. -/
theorem Folds.alike {source source' : String} {o o' : Option OpenList} {ts ts' us us' : List Token}
    (h : Folds source o ts us) (h' : Folds source' o' ts' us')
    (ho : Option.Rel (fun p q => List.Forall₂ (Twins b exact) p.read q.read) o o')
    (hts : List.Forall₂ (Twins b exact) ts ts') : List.Forall₂ (Alike b exact) us us' := by
  -- both foldings go by the same rule, since the groups of the next tokens are the same
  induction h generalizing o' ts' us' with
  | done =>
    cases hts
    cases ho
    cases h'
    exact .nil
  | opens hg _ ih =>
    cases ho
    cases hts with
    | cons ht hts =>
      cases h' with
      | opens _ h' => exact ih h' (.some .nil) hts
      | keep hl _ _ => exact absurd (ht.alike.group_eq ▸ hg) hl
  | closes hg hclose _ ih =>
    cases hts with
    | cons ht hts =>
      cases ho with
      | some hread =>
        cases h' with
        | closes _ hclose' h' =>
          rw [OpenList.close_eq_ok hclose, OpenList.close_eq_ok hclose']
          have hitems := List.rel_reverse hread
          exact .cons (.list _ _ _ _ (hitems.imp fun _ _ h => h.2.2)) (ih h' .none hts)
        | item hpush _ =>
          have hoperand := (OpenList.push_eq_ok hpush).1
          rw [← ht.alike.group_eq, hg] at hoperand
          cases hoperand
  | item hpush _ ih =>
    obtain ⟨hoperand, -, rfl⟩ := OpenList.push_eq_ok hpush
    cases hts with
    | cons ht hts =>
      cases ho with
      | some hread =>
        cases h' with
        | closes hg _ _ =>
          rw [← ht.alike.group_eq, hoperand] at hg
          cases hg
        | item hpush' h' =>
          obtain ⟨-, -, rfl⟩ := OpenList.push_eq_ok hpush'
          exact ih h' (.some (.cons ht hread)) hts
  | keep hl hr _ ih =>
    cases ho
    cases hts with
    | cons ht hts =>
      cases h' with
      | opens hg _ => exact absurd (ht.alike.group_eq.trans hg) hl
      | keep _ _ h' => exact .cons ht.alike (ih h' .none hts)

end Token

/-- The tokens of two filters have one form if what is scanned has it. -/
theorem Compiler.tokens_alike {c : Compiler} {exact : Prop} {query query' : String}
    {raw raw' ts ts' : List Token} (hraw : Token.ofSource c.builtins query = .ok raw)
    (hraw' : Token.ofSource c.builtins query' = .ok raw')
    (h : List.Forall₂ (Token.Akin exact) raw raw') (hts : c.tokens query = .ok ts)
    (hts' : c.tokens query' = .ok ts') : List.Forall₂ (Token.Alike c.builtins exact) ts ts' := by
  obtain ⟨_, hscan, hfold⟩ := tokens_eq_ok_iff.1 hts
  obtain ⟨_, hscan', hfold'⟩ := tokens_eq_ok_iff.1 hts'
  obtain rfl := Except.ok.inj (hraw.symm.trans hscan)
  obtain rfl := Except.ok.inj (hraw'.symm.trans hscan')
  have htwins : List.Forall₂ (Token.Twins c.builtins exact) raw raw' := by
    rw [List.forall₂_iff_get] at h ⊢
    exact ⟨h.1, fun i hi hi' =>
      ⟨Scanner.exists_lexeme_of_mem_tokens hraw (List.get_mem _ _),
        Scanner.exists_lexeme_of_mem_tokens hraw' (List.get_mem _ _), h.2 i hi hi'⟩⟩
  exact (Token.folds_of_foldFrom hfold).alike (Token.folds_of_foldFrom hfold') .none htwins

end ContentFilter
