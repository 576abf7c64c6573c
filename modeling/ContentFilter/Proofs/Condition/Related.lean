import ContentFilter.Proofs.Condition.Alike
import ContentFilter.Proofs.Condition.Source
import ContentFilter.Proofs.Token.Alike
/-!
# Conditions read from tokens of one form

The constructors of conditions, run on tokens that are alike, give conditions that are alike.  They
look at the kind of a token first, and at its lexeme only where the tokens agree, so that both runs
take the same way.
-/

namespace ContentFilter

variable {b : Builtins} {exact : Prop} {t t' : Token}

/-! ## Tokens -/

/-- Tokens of fields that are alike name fields that are alike. -/
lemma Token.Alike.field (h : Alike b exact t t') (hk : t.kind = .field) {f f' : FieldPath}
    (hf : FieldPath.ofText? t.lexeme = some f) (hf' : FieldPath.ofText? t'.lexeme = some f') :
    f.Alike exact f' := by
  have hakin := (h.akin (by simp [hk])).2
  rw [hk] at hakin
  rcases hakin with heq | ⟨hexact, g, g', hg, hg', hlength, hwildcard⟩
  · rw [← heq, hf] at hf'
    obtain rfl := Option.some.inj hf'
    exact ⟨rfl, rfl, fun _ => rfl⟩
  · obtain rfl := Option.some.inj (hf.symm.trans hg)
    obtain rfl := Option.some.inj (hf'.symm.trans hg')
    exact ⟨hlength, hwildcard, fun he => absurd he hexact⟩

/-- Numbers, booleans and builtins that are alike have one lexeme. -/
lemma Token.Alike.lexeme_eq (h : Alike b exact t t')
    (hk : t.kind = .number ∨ t.kind = .boolean ∨ t.kind = .builtin) : t.lexeme = t'.lexeme := by
  have hlist : t.kind ≠ .list := by
    rintro heq
    simp [heq] at hk
  have hakin := (h.akin hlist).2
  rcases hk with hk | hk | hk
  all_goals
    rw [hk] at hakin
    exact hakin

/-- The locale of a path is read from its lexeme. -/
lemma Condition.localeOf_of_lexeme_eq (h : t.lexeme = t'.lexeme) {locale : Option String}
    (hlocale : localeOf t = .ok locale) : localeOf t' = .ok locale := by
  unfold localeOf at hlocale ⊢
  rw [← h]
  split at hlocale
  · split at hlocale
    · next hword => rwa [if_pos hword]
    · simp at hlocale
  · split at hlocale
    · next hword => rwa [if_pos hword]
    · simp at hlocale
  · simp at hlocale

/-- Paths that are alike both have a locale, or neither has. -/
lemma Token.Alike.isSome_locale (h : Alike b exact t t') (hk : t.kind = .path)
    {locale locale' : Option String} (hl : Condition.localeOf t = .ok locale)
    (hl' : Condition.localeOf t' = .ok locale') : locale.isSome = locale'.isSome := by
  have hakin := (h.akin (by simp [hk])).2
  rw [hk] at hakin
  rcases hakin with heq | ⟨l, m, hlt, hmt⟩
  · have hsame := Condition.localeOf_of_lexeme_eq heq hl
    rw [Except.ok.inj (hsame.symm.trans hl')]
  · obtain rfl := Except.ok.inj (hlt.symm.trans hl)
    obtain rfl := Except.ok.inj (hmt.symm.trans hl')
    rfl

/-! ## Operands -/

lemma Location.Reads.alike (h : Token.Alike b exact t t') {l l' : Location} (hl : l.Reads b t)
    (hl' : l'.Reads b t') : l.Alike exact l' := by
  cases hl with
  | field hk hf =>
    cases hl' with
    | field _ hf' => exact .field (h.field hk hf hf')
    | column hk' => simp [← h.kind_eq, hk] at hk'
  | column hk hc =>
    cases hl' with
    | field hk' => simp [← h.kind_eq, hk] at hk'
    | column _ hc' =>
      rw [h.lexeme_eq (by simp [hk]), hc'] at hc
      obtain rfl := Option.some.inj hc
      exact .column _

lemma Subject.Reads.alike (h : Token.Alike b exact t t') {l l' : Subject} (hl : l.Reads b t)
    (hl' : l'.Reads b t') : l.Alike exact l' := by
  -- the second token has the kind of the first, which leaves one way to read it
  have hok' := ofToken_eq_ok_iff.2 hl'
  rw [ofToken, ← h.kind_eq] at hok'
  cases hl with
  | number hk =>
    rw [hk, ← h.lexeme_eq (by simp [hk])] at hok'
    exact Except.ok.inj hok' ▸ .number _
  | boolean hk =>
    rw [hk, ← h.lexeme_eq (by simp [hk])] at hok'
    exact Except.ok.inj hok' ▸ .boolean _
  | location hm =>
    cases hl' with
    | location hm' => exact .location (hm.alike h hm')
    | number hk' | boolean hk' =>
      rw [← h.kind_eq] at hk'
      rcases hm.kind_eq with hk | hk <;> simp [hk] at hk'

lemma Operand.Reads.alike (h : Token.Alike b exact t t') {v v' : Operand} (hv : v.Reads b t)
    (hv' : v'.Reads b t') : v.Alike exact v' := by
  have hok' := ofToken_eq_ok_iff.2 hv'
  rw [ofToken, ← h.kind_eq] at hok'
  cases hv with
  | string hk =>
    rw [hk] at hok'
    exact Except.ok.inj hok' ▸ .string _ _
  | number hk =>
    rw [hk, ← h.lexeme_eq (by simp [hk])] at hok'
    exact Except.ok.inj hok' ▸ .number _
  | boolean hk =>
    rw [hk, ← h.lexeme_eq (by simp [hk])] at hok'
    exact Except.ok.inj hok' ▸ .boolean _
  | now hk =>
    rw [hk] at hok'
    exact Except.ok.inj hok' ▸ .now
  | list hk hitems =>
    rw [hk] at hok'
    obtain ⟨items', hitems', rfl⟩ := listOf_eq_ok_iff.1 hok'
    exact .list (by rw [← hitems.length_eq, ← hitems'.length_eq, h.length_items])
  | location hl =>
    cases hv' with
    | location hl' => exact .location (hl.alike h hl')
    | string hk' | number hk' | boolean hk' | now hk' | list hk' =>
      rw [← h.kind_eq] at hk'
      rcases hl.kind_eq with hk | hk <;> simp [hk] at hk'

/-! ## Conditions -/

namespace Condition

variable {left left' operator operator' right right' : Token} {c c' : Condition}

lemma alike_of_ofLone (ht : Token.Alike b exact t t') (h : ofLone t = .ok c)
    (h' : ofLone t' = .ok c') : c.Alike exact c' := by
  obtain ⟨f, hk, hf, rfl⟩ := ofLone_eq_ok_iff.1 h
  obtain ⟨f', -, hf', rfl⟩ := ofLone_eq_ok_iff.1 h'
  exact .presence (ht.field hk hf hf')

lemma operator_eq_of_alike (ho : Token.Alike b exact operator operator') {o o' : Operator}
    (hk : operator.kind = .operator o) (hk' : operator'.kind = .operator o') : o = o' :=
  Kind.operator.inj (hk.symm.trans (ho.kind_eq.trans hk'))

/-- Conditions that are made of tokens that are alike are alike. -/
theorem Reads.alike (hl : Token.Alike b exact left left')
    (ho : Token.Alike b exact operator operator') (hr : Token.Alike b exact right right')
    (h : c.Reads b left operator right) (h' : c'.Reads b left' operator' right') :
    c.Alike exact c' := by
  -- the kinds tell which condition the first triple makes, and so the second makes one like it
  have hok' := ofTriple_eq_ok_iff.2 h'
  rw [ofTriple, ← hl.kind_eq, ← hr.kind_eq] at hok'
  cases h with
  | nullity negated hnull hloc hwildcard hk =>
    rw [if_pos hnull] at hok'
    obtain ⟨l', negated', hloc', -, hk', rfl⟩ := ofNull_eq_ok_iff.1 hok'
    have hnegated : negated = negated' := by
      have hrelation := operator_eq_of_alike ho hk hk'
      cases negated with
      | false => cases negated' with
        | false => rfl
        | true => cases hrelation
      | true => cases negated' with
        | false => cases hrelation
        | true => rfl
    rw [hnegated]
    exact .nullity negated' (hloc.alike hl hloc')
  | pathLeft hleft hvalue hreads hk hv hlocale =>
    have hnull : right.kind ≠ .null := hreads.kind_ne.2
    rw [if_neg hnull, if_pos (.inl hleft), ofUrlPath, ← hl.kind_eq, if_pos hleft] at hok'
    obtain ⟨v', o', locale', -, hreads', hk', -, hlocale', rfl⟩ := ofPath_eq_ok_iff.1 hok'
    rw [hk', operator_eq_of_alike ho hk hk']
    exact .urlPath _ (hreads.alike hr hreads') (hl.isSome_locale hleft hlocale hlocale')
  | pathRight hright hvalue hreads hk hv hlocale =>
    have hnull : right.kind ≠ .null := by simp [hright]
    have hleft : left'.kind ≠ .path := hl.kind_eq ▸ hreads.kind_ne.1
    rw [if_neg hnull, if_pos (.inr hright)] at hok'
    obtain ⟨hk', -⟩ | ⟨-, -, hok'⟩ := ofUrlPath_eq_ok_iff.1 hok'
    · exact absurd hk' hleft
    · obtain ⟨v', o', locale', -, hreads', hk', -, hlocale', rfl⟩ := ofPath_eq_ok_iff.1 hok'
      rw [hk', operator_eq_of_alike ho hk hk']
      exact .urlPath _ (hreads.alike hl hreads') (hr.isSome_locale hright hlocale hlocale')
  | comparison hleft hright hk hv hwildcard hliteral hnow =>
    rw [if_neg hright.kind_ne.2,
      if_neg (not_or.2 ⟨hleft.kind_ne_path, hright.kind_ne.1⟩)] at hok'
    obtain ⟨l', r', o', hleft', hright', hk', -, -, -, -, rfl⟩ := ofComparison_eq_ok_iff.1 hok'
    rw [operator_eq_of_alike ho hk hk']
    exact .comparison o' (hleft.alike hl hleft') (hright.alike hr hright')

end Condition
end ContentFilter
