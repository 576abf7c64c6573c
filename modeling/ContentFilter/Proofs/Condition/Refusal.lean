import ContentFilter.Proofs.Filter.Compiled
/-!
# Where a condition is refused

A constructor of conditions names the token that is at fault, and this is always one of the tokens
that it was given (`Filter.Clause.token_mem_tokens`): a reading of a single token can only blame
that token, and the checks behind the readings blame the operand or the operator that they are
about.  The elements of a list could be blamed too, but they are scalars and not refused.
-/

namespace ContentFilter

variable {b : Builtins} {t left operator right : Token} {e : Refusal}

namespace Location

lemma token_of_fieldOf (h : fieldOf t = .error e) : e.token = t := by
  unfold fieldOf at h
  split at h
  · cases h
  · obtain rfl := Except.error.inj h
    rfl

lemma token_of_columnOf (h : columnOf b t = .error e) : e.token = t := by
  unfold columnOf at h
  split at h
  · cases h
  · obtain rfl := Except.error.inj h
    rfl

lemma token_of_ofLeft {cause : ConditionCause} (h : ofLeft b cause t = .error e) :
    e.token = t := by
  unfold ofLeft at h
  split at h
  · exact token_of_fieldOf (Except.map_eq_error_iff.1 h)
  · exact token_of_columnOf (Except.map_eq_error_iff.1 h)
  all_goals
    obtain rfl := Except.error.inj h
    rfl

end Location

lemma Subject.token_of_ofToken (h : ofToken b t = .error e) : e.token = t := by
  unfold ofToken at h
  split at h
  · cases h
  · cases h
  · exact Location.token_of_ofLeft (Except.map_eq_error_iff.1 h)

namespace Operand

/-- A list of scalars is not refused. -/
lemma listOf_ne_error (ht : ∀ i ∈ t.items, i.kind.isScalar = true) : listOf t ≠ .error e := by
  intro h
  obtain ⟨i, hi, hitem⟩ := Except.exists_of_mapM_eq_error (Except.map_eq_error_iff.1 h)
  have hscalar := ht i hi
  unfold itemOf at hitem
  unfold Kind.isScalar at hscalar
  split at hitem <;> simp_all

lemma token_of_ofToken (ht : ∀ i ∈ t.items, i.kind.isScalar = true)
    (h : ofToken b t = .error e) : e.token = t := by
  unfold ofToken at h
  split at h
  · exact Location.token_of_fieldOf (Except.map_eq_error_iff.1 h)
  · exact Location.token_of_columnOf (Except.map_eq_error_iff.1 h)
  · cases h
  · cases h
  · cases h
  · cases h
  · exact absurd h (listOf_ne_error ht)
  all_goals
    obtain rfl := Except.error.inj h
    rfl

end Operand

namespace Condition

/-- An operator that is refused is blamed itself, or the value that it does not accept. -/
lemma token_of_operatorOf {value : Operand} (h : operatorOf operator t value = .error e) :
    e.token = operator ∨ e.token = t := by
  unfold operatorOf at h
  split at h
  · split at h
    · cases h
    · obtain rfl := Except.error.inj h
      exact .inr rfl
  · obtain rfl := Except.error.inj h
    exact .inl rfl

lemma token_of_ofComparison (ht : ∀ i ∈ right.items, i.kind.isScalar = true)
    (h : ofComparison b left operator right = .error e) :
    e.token = left ∨ e.token = operator ∨ e.token = right := by
  rcases Except.bind_eq_error_iff.1 h with h | ⟨l, -, h⟩
  · exact .inl (Subject.token_of_ofToken h)
  rcases Except.bind_eq_error_iff.1 h with h | ⟨r, -, h⟩
  · exact .inr (.inr (Operand.token_of_ofToken ht h))
  rcases Except.bind_eq_error_iff.1 h with h | ⟨o, -, h⟩
  · exact .inr (token_of_operatorOf h)
  -- what is left are the checks of wildcards and of `now`, which all blame the right operand
  split_ifs at h
  all_goals
    obtain rfl := Except.error.inj h
    exact .inr (.inr rfl)

lemma token_of_ofNull (h : ofNull b left operator = .error e) :
    e.token = left ∨ e.token = operator := by
  unfold ofNull at h
  split at h
  · obtain rfl := Except.error.inj h
    exact .inl rfl
  rcases Except.bind_eq_error_iff.1 h with h | ⟨l, -, h⟩
  · exact .inl (Location.token_of_ofLeft h)
  split at h
  · obtain rfl := Except.error.inj h
    exact .inl rfl
  · split at h
    · cases h
    · cases h
    · obtain rfl := Except.error.inj h
      exact .inr rfl

lemma token_of_ofLone (h : ofLone t = .error e) : e.token = t := by
  unfold ofLone at h
  split at h
  · exact Location.token_of_fieldOf (Except.map_eq_error_iff.1 h)
  all_goals
    obtain rfl := Except.error.inj h
    rfl

/-! ## Paths -/

variable {path value : Token} {kind : Kind}

lemma token_of_localeOf (h : localeOf path = .error e) : e.token = path := by
  unfold localeOf at h
  split at h
  · split at h
    · cases h
    · obtain rfl := Except.error.inj h
      rfl
  · split at h
    · split at h <;> cases h
    · obtain rfl := Except.error.inj h
      rfl
  · obtain rfl := Except.error.inj h
    rfl

lemma token_of_ofPath (ht : ∀ i ∈ value.items, i.kind.isScalar = true)
    (h : ofPath b path operator value kind = .error e) :
    e.token = path ∨ e.token = operator ∨ e.token = value := by
  -- what follows when the value is read, which is done in one of two ways
  have hrest : ∀ v : Operand, (do
      let _ ← operatorOf operator value v
      let locale ← localeOf path
      return urlPath kind v locale) = Except.error e →
      e.token = path ∨ e.token = operator ∨ e.token = value := by
    intro v h
    rcases Except.bind_eq_error_iff.1 h with h | ⟨o, -, h⟩
    · exact .inr (token_of_operatorOf h)
    rcases Except.bind_eq_error_iff.1 h with h | ⟨locale, -, h⟩
    · exact .inl (token_of_localeOf h)
    · cases h
  unfold ofPath at h
  split at h
  · exact hrest _ h
  · rcases Except.bind_eq_error_iff.1 h with h | ⟨v, -, h⟩
    · exact .inr (.inr (Operand.token_of_ofToken ht h))
    · exact hrest v h
  · obtain rfl := Except.error.inj h
    exact .inr (.inr rfl)

lemma token_of_ofUrlPath (hl : ∀ i ∈ left.items, i.kind.isScalar = true)
    (hr : ∀ i ∈ right.items, i.kind.isScalar = true)
    (h : ofUrlPath b left operator right = .error e) :
    e.token = left ∨ e.token = operator ∨ e.token = right := by
  unfold ofUrlPath at h
  split at h
  · exact token_of_ofPath hr h
  · split at h
    · -- the path stands on the right, so that the two sides have changed places
      rcases token_of_ofPath hl h with h | h | h
      · exact .inr (.inr h)
      · exact .inr (.inl h)
      · exact .inl h
    · obtain rfl := Except.error.inj h
      exact .inr (.inl rfl)

lemma token_of_ofTriple (hl : ∀ i ∈ left.items, i.kind.isScalar = true)
    (hr : ∀ i ∈ right.items, i.kind.isScalar = true)
    (h : ofTriple b left operator right = .error e) :
    e.token = left ∨ e.token = operator ∨ e.token = right := by
  unfold ofTriple at h
  split at h
  · rcases token_of_ofNull h with h | h
    · exact .inl h
    · exact .inr (.inl h)
  · split at h
    · exact token_of_ofUrlPath hl hr h
    · exact token_of_ofComparison hr h

end Condition

/-- The refusal of a clause names one of the tokens of the clause. -/
theorem Filter.Clause.token_mem_tokens {ctx : Context} {clause : Filter.Clause}
    (ht : ∀ t ∈ clause.tokens, ∀ i ∈ t.items, i.kind.isScalar = true)
    (h : clause.condition ctx = .error e) : e.token ∈ clause.tokens := by
  cases clause with
  | lone t => exact List.mem_singleton.2 (Condition.token_of_ofLone h)
  | triple left operator right =>
    have htoken := Condition.token_of_ofTriple (ht left (by simp [tokens]))
      (ht right (by simp [tokens])) h
    simpa [tokens] using htoken

end ContentFilter
