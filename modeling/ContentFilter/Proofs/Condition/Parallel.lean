import ContentFilter.Condition
import ContentFilter.Proofs.Token.Parallel
/-!
# Conditions from counterparts

Two readings of conditions side by side.  From tokens that are counterparts each constructor makes
the same condition, or it refuses both sides for the same cause, at the same place if places agree
(`Condition.ofLone_rel`, `Condition.ofTriple_rel`).  The dialect is not asked for.
-/

namespace ContentFilter

open Except (Rel)

/-- The refusals have the same cause, and concern the same place if places agree. -/
structure Refusal.Agrees (placed : Prop) (e e' : Refusal) : Prop where
  cause_eq : e.cause = e'.cause
  span_eq : placed → e.token.span = e'.token.span

open Token (Counterpart SameWord)

variable {placed : Prop} {b b' : Builtins} {t t' : Token}

lemma Token.SameWord.agrees (h : SameWord placed t t') (cause : ConditionCause) :
    Refusal.Agrees placed ⟨cause, t⟩ ⟨cause, t'⟩ := ⟨rfl, h.span_eq⟩

lemma Token.Counterpart.agrees (h : Counterpart placed b b' t t') (cause : ConditionCause) :
    Refusal.Agrees placed ⟨cause, t⟩ ⟨cause, t'⟩ := ⟨rfl, h.span_eq⟩

/-! ## Operands -/

lemma Location.fieldOf_rel (h : Counterpart placed b b' t t') (hk : t.kind ≠ .list) :
    Rel (Refusal.Agrees placed) Eq (fieldOf t) (fieldOf t') := by
  unfold fieldOf
  rw [← h.lexeme_eq hk]
  split
  · exact .ok rfl
  · exact .error (h.agrees _)

lemma Location.columnOf_rel (h : Counterpart placed b b' t t') (hk : t.kind = .builtin) :
    Rel (Refusal.Agrees placed) Eq (columnOf b t) (columnOf b' t') := by
  unfold columnOf
  rw [← h.column_eq hk]
  split
  · exact .ok rfl
  · exact .error (h.agrees _)

lemma Location.ofLeft_rel (h : Counterpart placed b b' t t') (otherwise : ConditionCause) :
    Rel (Refusal.Agrees placed) Eq (ofLeft b otherwise t) (ofLeft b' otherwise t') := by
  unfold ofLeft
  rw [← h.kind_eq]
  cases hk : t.kind with
  | field => exact (fieldOf_rel h (by simp [hk])).map fun _ _ => congrArg field
  | builtin => exact (columnOf_rel h hk).map fun _ _ => congrArg column
  | _ => exact .error (h.agrees _)

lemma Subject.ofToken_rel (h : Counterpart placed b b' t t') :
    Rel (Refusal.Agrees placed) Eq (ofToken b t) (ofToken b' t') := by
  have hlocation := (Location.ofLeft_rel h .leftOperand).map fun _ _ => congrArg Subject.location
  unfold ofToken
  rw [← h.kind_eq]
  cases hk : t.kind with
  | number | boolean =>
    rw [← h.lexeme_eq (by simp [hk])]
    exact .ok rfl
  | _ => exact hlocation

lemma Operand.itemOf_rel (h : SameWord placed t t') :
    Rel (Refusal.Agrees placed) Eq (itemOf t) (itemOf t') := by
  unfold itemOf
  rw [← h.kind_eq, ← h.lexeme_eq]
  cases hk : t.kind with
  | string | number | boolean => exact .ok rfl
  | _ => exact .error (h.agrees _)

lemma Operand.ofToken_rel (h : Counterpart placed b b' t t') :
    Rel (Refusal.Agrees placed) Eq (ofToken b t) (ofToken b' t') := by
  unfold ofToken
  rw [← h.kind_eq]
  cases hk : t.kind with
  | field => exact (Location.fieldOf_rel h (by simp [hk])).map fun _ _ hf => by rw [hf]
  | builtin => exact (Location.columnOf_rel h hk).map fun _ _ hc => by rw [hc]
  | string | number | boolean =>
    rw [← h.lexeme_eq (by simp [hk])]
    exact .ok rfl
  | keyword => exact .ok rfl
  | list =>
    refine (Rel.mapM h.items fun _ _ hi => itemOf_rel hi).map fun items items' hitems => ?_
    rw [List.forall₂_eq_eq_eq] at hitems
    rw [hitems]
  | _ => exact .error (h.agrees _)

/-! ## Conditions -/

namespace Condition

variable {left left' operator operator' right right' value value' : Token}

lemma operatorOf_rel (ho : Counterpart placed b b' operator operator')
    (hv : Counterpart placed b b' value value') (v : Operand) :
    Rel (Refusal.Agrees placed) Eq (operatorOf operator value v)
      (operatorOf operator' value' v) := by
  unfold operatorOf
  rw [← ho.kind_eq]
  cases hk : operator.kind with
  | operator o =>
    dsimp only
    split
    · exact .ok rfl
    · exact .error (hv.agrees _)
  | _ => exact .error (ho.agrees _)

lemma ofComparison_rel (hl : Counterpart placed b b' left left')
    (ho : Counterpart placed b b' operator operator')
    (hr : Counterpart placed b b' right right') :
    Rel (Refusal.Agrees placed) Eq (ofComparison b left operator right)
      (ofComparison b' left' operator' right') := by
  refine (Subject.ofToken_rel hl).bind ?_
  rintro l _ rfl
  refine (Operand.ofToken_rel hr).bind ?_
  rintro r _ rfl
  refine (operatorOf_rel ho hr r).bind ?_
  rintro o _ rfl
  split_ifs
  · exact .error (hr.agrees _)
  · exact .error (hr.agrees _)
  · exact .error (hr.agrees _)
  · exact .ok rfl

lemma ofNull_rel (hl : Counterpart placed b b' left left')
    (ho : Counterpart placed b b' operator operator') :
    Rel (Refusal.Agrees placed) Eq (ofNull b left operator) (ofNull b' left' operator') := by
  unfold ofNull
  rw [← hl.kind_eq, ← ho.kind_eq]
  split_ifs
  · exact .error (hl.agrees _)
  · refine (Location.ofLeft_rel hl .nullOperand).bind ?_
    rintro l _ rfl
    split_ifs
    · exact .error (hl.agrees _)
    · split
      · exact .ok rfl
      · exact .ok rfl
      · exact .error (ho.agrees _)

/-- A token that stands alone makes the same condition as its counterpart. -/
lemma ofLone_rel (h : Counterpart placed b b' t t') :
    Rel (Refusal.Agrees placed) Eq (ofLone t) (ofLone t') := by
  unfold ofLone
  rw [← h.kind_eq]
  cases hk : t.kind with
  | field =>
    exact (Location.fieldOf_rel h (by simp [hk])).map fun _ _ => congrArg presence
  | _ => exact .error (h.agrees _)

lemma localeOf_rel (h : Counterpart placed b b' t t') (hk : t.kind = .path) :
    Rel (Refusal.Agrees placed) Eq (localeOf t) (localeOf t') := by
  unfold localeOf
  rw [← h.lexeme_eq (by simp [hk])]
  split
  · split_ifs
    · exact .ok rfl
    · exact .error (h.agrees _)
  · split_ifs
    · exact .ok rfl
    · exact .ok rfl
    · exact .error (h.agrees _)
  · exact .error (h.agrees _)

lemma ofPath_rel (hp : Counterpart placed b b' t t')
    (ho : Counterpart placed b b' operator operator')
    (hv : Counterpart placed b b' value value') (hk : t.kind = .path) (kind : Kind) :
    Rel (Refusal.Agrees placed) Eq (ofPath b t operator value kind)
      (ofPath b' t' operator' value' kind) := by
  -- whatever the value is, the rest of the reading is the same
  have hrest : ∀ v v', v = v' → Rel (Refusal.Agrees placed) Eq
      (do let _ ← operatorOf operator value v; return urlPath kind v (← localeOf t))
      (do let _ ← operatorOf operator' value' v'; return urlPath kind v' (← localeOf t')) := by
    rintro v _ rfl
    refine (operatorOf_rel ho hv v).bind fun _ _ _ => (localeOf_rel hp hk).bind ?_
    rintro locale _ rfl
    exact .ok rfl
  unfold ofPath
  rw [← hv.kind_eq]
  cases hkv : value.kind with
  | string => exact hrest _ _ (by rw [hv.lexeme_eq (by simp [hkv])])
  | list => exact (Operand.ofToken_rel hv).bind hrest
  | _ => exact .error (hv.agrees _)

lemma ofUrlPath_rel (hl : Counterpart placed b b' left left')
    (ho : Counterpart placed b b' operator operator')
    (hr : Counterpart placed b b' right right') (hk : left.kind = .path ∨ right.kind = .path) :
    Rel (Refusal.Agrees placed) Eq (ofUrlPath b left operator right)
      (ofUrlPath b' left' operator' right') := by
  unfold ofUrlPath
  rw [← hl.kind_eq, ← ho.kind_eq]
  split_ifs with hleft
  · exact ofPath_rel hl ho hr hleft _
  · split
    · exact ofPath_rel hr ho hl (hk.resolve_left hleft) _
    · exact .error (ho.agrees _)

/-- Three tokens make the same condition as their counterparts. -/
lemma ofTriple_rel (hl : Counterpart placed b b' left left')
    (ho : Counterpart placed b b' operator operator')
    (hr : Counterpart placed b b' right right') :
    Rel (Refusal.Agrees placed) Eq (ofTriple b left operator right)
      (ofTriple b' left' operator' right') := by
  unfold ofTriple
  rw [← hl.kind_eq, ← hr.kind_eq]
  split_ifs with _ hk
  · exact ofNull_rel hl ho
  · exact ofUrlPath_rel hl ho hr hk
  · exact ofComparison_rel hl ho hr

end Condition
end ContentFilter
