import Mathlib.Data.List.Forall2
/-!
# Outcomes

What it means for a computation that can fail to succeed, and where it fails if it does, by the way
it is composed.  Two computations come out alike (`Except.Rel`) if both fail or both succeed, with
errors or results that are related; this too goes by the way they are composed.  A traversal comes
out as a list that corresponds to its elements one by one.
-/

/-! ## Lists that correspond one by one -/

namespace List

variable {α β : Type} {R : α → β → Prop} {as as' : List α} {bs : List β}

/-- There is a list that corresponds to another one exactly if there is something for each of its
elements. -/
lemma exists_forall₂_iff :
    (∃ bs, Forall₂ R as bs) ↔ ∀ a ∈ as, ∃ b, R a b := by
  induction as with
  | nil => simp
  | cons a as ih =>
    simp only [forall₂_cons_left_iff, forall_mem_cons, ← ih]
    constructor
    · rintro ⟨_, b, bs, hb, hbs, rfl⟩
      exact ⟨⟨b, hb⟩, bs, hbs⟩
    · rintro ⟨⟨b, hb⟩, bs, hbs⟩
      exact ⟨b :: bs, b, bs, hb, hbs, rfl⟩

/-- Of two lists that correspond one by one, both are empty or neither is. -/
lemma isEmpty_eq_of_forall₂ (h : Forall₂ R as bs) : as.isEmpty = bs.isEmpty := by
  cases h <;> rfl

/-- What is related to a joined list is joined as well. -/
lemma exists_of_forall₂_append (h : Forall₂ R (as ++ as') bs) :
    ∃ us vs, bs = us ++ vs ∧ Forall₂ R as us ∧ Forall₂ R as' vs := by
  induction as generalizing bs with
  | nil => exact ⟨[], bs, rfl, .nil, h⟩
  | cons a as ih =>
    cases h with
    | cons ha h =>
      obtain ⟨us, vs, rfl, hus, hvs⟩ := ih h
      exact ⟨_ :: us, vs, rfl, .cons ha hus, hvs⟩

end List

/-! ## Success -/

namespace Except

variable {ε ε' α β : Type}

/-- A sequence succeeds exactly if both of its parts do. -/
lemma bind_eq_ok_iff {x : Except ε α} {f : α → Except ε β} {b : β} :
    x >>= f = .ok b ↔ ∃ a, x = .ok a ∧ f a = .ok b := by
  cases x with
  | error e => simp [bind, Except.bind]
  | ok a => simp [bind, Except.bind]

lemma map_eq_ok_iff {x : Except ε α} {f : α → β} {b : β} :
    x.map f = .ok b ↔ ∃ a, x = .ok a ∧ f a = b := by
  cases x with
  | error e => simp [Except.map]
  | ok a => simp [Except.map]

lemma mapError_eq_ok_iff {x : Except ε α} {f : ε → ε'} {a : α} :
    x.mapError f = .ok a ↔ x = .ok a := by
  cases x with
  | error e => simp [Except.mapError]
  | ok b => simp [Except.mapError]

/-- A traversal succeeds exactly if every element does, with their results in order. -/
lemma mapM_eq_ok_iff {f : α → Except ε β} {as : List α} {bs : List β} :
    as.mapM f = .ok bs ↔ List.Forall₂ (fun a b => f a = .ok b) as bs := by
  induction as generalizing bs with
  | nil =>
    rw [List.mapM_nil, List.forall₂_nil_left_iff]
    exact ⟨fun h => (Except.ok.inj h).symm, fun h => congrArg Except.ok h.symm⟩
  | cons a as ih =>
    rw [List.mapM_cons, bind_eq_ok_iff, List.forall₂_cons_left_iff]
    constructor
    · rintro ⟨b, hb, h⟩
      obtain ⟨bs', hbs, h⟩ := bind_eq_ok_iff.1 h
      exact ⟨b, bs', hb, ih.1 hbs, (Except.ok.inj h).symm⟩
    · rintro ⟨b, bs', hb, hbs, rfl⟩
      exact ⟨b, hb, bind_eq_ok_iff.2 ⟨bs', ih.2 hbs, rfl⟩⟩

/-- A traversal that succeeds does so at every element. -/
lemma exists_of_mapM_eq_ok {f : α → Except ε β} {as : List α} {bs : List β}
    (h : as.mapM f = .ok bs) : ∀ a ∈ as, ∃ b, f a = .ok b :=
  List.exists_forall₂_iff.1 ⟨bs, mapM_eq_ok_iff.1 h⟩

/-- What a traversal gives depends on the elements only. -/
lemma mapM_congr {f g : α → Except ε β} {as : List α} (h : ∀ a ∈ as, f a = g a) :
    as.mapM f = as.mapM g := by
  induction as with
  | nil => rfl
  | cons a as ih =>
    rw [List.mapM_cons, List.mapM_cons, h a List.mem_cons_self,
      ih fun x hx => h x (List.mem_cons_of_mem a hx)]

lemma exists_of_isOk {x : Except ε α} (h : x.isOk = true) : ∃ a, x = .ok a := by
  cases x with
  | error e => cases h
  | ok a => exact ⟨a, rfl⟩

lemma eq_ok_of_toOption {x : Except ε α} {a : α} (h : x.toOption = some a) : x = .ok a := by
  cases x with
  | error e => cases h
  | ok b => exact congrArg ok (Option.some.inj h)

/-! ## Failures -/

/-- A sequence fails where its first part does, or else where its second part does. -/
lemma bind_eq_error_iff {x : Except ε α} {f : α → Except ε β} {e : ε} :
    x >>= f = .error e ↔ x = .error e ∨ ∃ a, x = .ok a ∧ f a = .error e := by
  cases x with
  | error e => simp [bind, Except.bind]
  | ok a => simp [bind, Except.bind]

lemma map_eq_error_iff {x : Except ε α} {f : α → β} {e : ε} :
    x.map f = .error e ↔ x = .error e := by
  cases x with
  | error e => simp [Except.map]
  | ok a => simp [Except.map]

lemma mapError_eq_error_iff {x : Except ε α} {f : ε → ε'} {e' : ε'} :
    x.mapError f = .error e' ↔ ∃ e, x = .error e ∧ f e = e' := by
  cases x with
  | error e => simp [Except.mapError]
  | ok a => simp [Except.mapError]

/-- A traversal fails at the first element that does. -/
lemma mapM_eq_error_iff {f : α → Except ε β} {as : List α} {e : ε} :
    as.mapM f = .error e ↔ ∃ before a after, as = before ++ a :: after ∧
      (∀ x ∈ before, ∃ b, f x = .ok b) ∧ f a = .error e := by
  induction as with
  | nil =>
    refine ⟨fun h => (by cases h), ?_⟩
    rintro ⟨before, a, after, h, -⟩
    simp at h
  | cons a as ih =>
    simp only [List.mapM_cons, bind_eq_error_iff, ih]
    constructor
    · rintro (h | ⟨b, hb, ⟨before, c, after, rfl, hbefore, hc⟩ | ⟨bs, -, h⟩⟩)
      · exact ⟨[], a, as, rfl, by simp, h⟩
      · exact ⟨a :: before, c, after, rfl, List.forall_mem_cons.2 ⟨⟨b, hb⟩, hbefore⟩, hc⟩
      · cases h
    · rintro ⟨before, c, after, h, hbefore, hc⟩
      cases before with
      | nil =>
        obtain ⟨rfl, -⟩ := List.cons.inj h
        exact .inl hc
      | cons x before =>
        obtain ⟨rfl, rfl⟩ := List.cons.inj h
        obtain ⟨⟨b, hb⟩, hbefore⟩ := List.forall_mem_cons.1 hbefore
        exact .inr ⟨b, hb, .inl ⟨before, c, after, rfl, hbefore, hc⟩⟩

/-- A traversal that fails does so at one of the elements. -/
lemma exists_of_mapM_eq_error {f : α → Except ε β} {as : List α} {e : ε}
    (h : as.mapM f = .error e) : ∃ a ∈ as, f a = .error e := by
  obtain ⟨before, a, after, rfl, -, ha⟩ := mapM_eq_error_iff.1 h
  exact ⟨a, by simp, ha⟩

/-! ## Two computations -/

variable {α' β' : Type} {E : ε → ε' → Prop} {R : α → α' → Prop} {S : β → β' → Prop}

/-- Both computations fail with related errors, or both succeed with related results. -/
inductive Rel (E : ε → ε' → Prop) (R : α → α' → Prop) : Except ε α → Except ε' α' → Prop
  | error {e : ε} {e' : ε'} : E e e' → Rel E R (.error e) (.error e')
  | ok {a : α} {a' : α'} : R a a' → Rel E R (.ok a) (.ok a')

namespace Rel

variable {x : Except ε α} {x' : Except ε' α'}

/-- Sequences come out alike if their first parts do, and their second parts do on related
results. -/
lemma bind {f : α → Except ε β} {f' : α' → Except ε' β'} (h : Rel E R x x')
    (hf : ∀ a a', R a a' → Rel E S (f a) (f' a')) : Rel E S (x >>= f) (x' >>= f') := by
  cases h with
  | error he => exact .error he
  | ok ha => exact hf _ _ ha

lemma map {f : α → β} {f' : α' → β'} (h : Rel E R x x') (hf : ∀ a a', R a a' → S (f a) (f' a')) :
    Rel E S (x.map f) (x'.map f') := by
  cases h with
  | error he => exact .error he
  | ok ha => exact .ok (hf _ _ ha)

lemma mapError {δ δ' : Type} {D : δ → δ' → Prop} {f : ε → δ} {f' : ε' → δ'} (h : Rel E R x x')
    (hf : ∀ e e', E e e' → D (f e) (f' e')) : Rel D R (x.mapError f) (x'.mapError f') := by
  cases h with
  | error he => exact .error (hf _ _ he)
  | ok ha => exact .ok ha

/-- Traversals come out alike if they do so at each pair of elements. -/
lemma mapM {f : α → Except ε β} {f' : α' → Except ε' β'} {as : List α} {as' : List α'}
    (h : List.Forall₂ R as as') (hf : ∀ a a', R a a' → Rel E S (f a) (f' a')) :
    Rel E (List.Forall₂ S) (as.mapM f) (as'.mapM f') := by
  induction h with
  | nil => exact .ok .nil
  | cons ha _ ih =>
    rw [List.mapM_cons, List.mapM_cons]
    exact (hf _ _ ha).bind fun b b' hb => ih.bind fun bs bs' hbs => .ok (.cons hb hbs)

lemma mono {D : ε → ε' → Prop} {Q : α → α' → Prop} (h : Rel E R x x')
    (hE : ∀ e e', E e e' → D e e') (hR : ∀ a a', R a a' → Q a a') : Rel D Q x x' := by
  cases h with
  | error he => exact .error (hE _ _ he)
  | ok ha => exact .ok (hR _ _ ha)

/-- What comes out alike up to equality is equal. -/
lemma eq {x y : Except ε α} (h : Rel Eq Eq x y) : x = y := by
  cases h with
  | error he => rw [he]
  | ok ha => rw [ha]

/-- What comes out like a result up to equality is that result. -/
lemma eq_ok {a : α} (h : Rel E Eq x (.ok a)) : x = .ok a := by
  cases h with
  | ok ha => rw [ha]

lemma exists_eq_error {e' : ε'} (h : Rel E R x (.error e')) : ∃ e, x = .error e ∧ E e e' := by
  cases h with
  | error he => exact ⟨_, rfl, he⟩

end Rel

end Except
