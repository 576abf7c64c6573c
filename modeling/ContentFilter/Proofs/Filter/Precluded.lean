import ContentFilter.Proofs.Condition.Names
import ContentFilter.Proofs.Filter.Diagnostic
import ContentFilter.Proofs.Token.Folding
/-!
# Causes that earlier stages preclude

Some causes of refusal are checked for and never found (`Cause.precluded`).  What they would be
about is settled before: a field that is scanned is a name, and a name is a field path; a name is
scanned as a builtin only if it has a column; the elements of a list are scalars since its brackets
were folded, and no bracket is left then; the reader puts operators between operands, and refuses a
connective at the end; the value of a comparison is neither null nor the path, which have conditions
of their own; and an operator that is no comparison does not accept `now` as a value.

So the constructors of conditions are gone through with tokens for which all look-ups succeed
(`Token.Resolves`), and the steps of the reader with tokens that are no brackets.  No filter is
refused for one of these causes, whatever the dialect and the builtins are
(`Compiler.cause_notMem_precluded`).
-/

namespace ContentFilter

open ContentFilter.Filter

/-- The causes concerning the shape of a filter that are precluded. -/
def ShapeCause.precluded : List ShapeCause := [.unexpectedBracket, .incomplete]

/-- The causes concerning a condition that are precluded. -/
def ConditionCause.precluded : List ConditionCause :=
  [.invalidField, .unknownBuiltin, .listItem, .expectedOperator, .rightOperand, .nowNeedsComparison]

/-- The causes that no filter is refused for. -/
def Cause.precluded : List Cause :=
  ShapeCause.precluded.map .shape ++ ConditionCause.precluded.map .condition

namespace Cause

/-- What the wordings begin with that go on with a part of the source or an operator. -/
def openings : List String :=
  ["Unexpected character '", "The operator '", "Invalid order by segment: '",
    "Invalid field name in order by statement: '"]

/-- The wording of a precluded cause is none of these. -/
lemma ne_message_of_opening {cause : Cause} {opening part rest : String}
    (hmem : cause ∈ precluded) (hopening : opening ∈ openings) :
    opening ++ part ++ rest ≠ cause.message := by
  intro h
  have hnone : ∀ o ∈ openings, ∀ k ∈ precluded,
      k.message.toList.take o.toList.length ≠ o.toList := by decide +kernel
  refine hnone opening hopening cause hmem ?_
  rw [← h, String.toList_append, String.toList_append, List.append_assoc, List.take_left]

/-- A precluded cause shares its wording with no other cause, except for that on the elements of
lists, which are looked at when the brackets are folded. -/
lemma eq_of_message {cause cause' : Cause} (hmem : cause' ∈ precluded)
    (h : cause.message = cause'.message) :
    cause = cause' ∨ cause = .list .notAScalar ∧ cause' = .condition .listItem := by
  cases cause with
  | lexical c =>
    cases c with
    | unexpectedChar => exact (ne_message_of_opening hmem (by simp [openings]) h).elim
    | _ => revert cause'; decide +kernel
  | list c => revert cause'; cases c <;> decide +kernel
  | shape c => revert cause'; cases c <;> decide +kernel
  | condition c =>
    cases c with
    | patternRequired => exact (ne_message_of_opening hmem (by simp [openings]) h).elim
    | regexRequired => exact (ne_message_of_opening hmem (by simp [openings]) h).elim
    | _ => revert cause'; decide +kernel
  | order c =>
    cases c with
    | invalidSegment => exact (ne_message_of_opening hmem (by simp [openings]) h).elim
    | invalidName => exact (ne_message_of_opening hmem (by simp [openings]) h).elim
    | emptyStatement => revert cause'; decide +kernel

end Cause

/-! ## Tokens that are resolved -/

/-- What is looked up for a token is found. -/
structure Token.Resolves (b : Builtins) (t : Token) : Prop where
  /-- A field has a path. -/
  field : t.kind = .field → ∃ f, FieldPath.ofText? t.lexeme = some f
  /-- A builtin has a column. -/
  column : t.kind = .builtin → ∃ c, b.column? t.lexeme = some c
  /-- The elements of a list have values. -/
  items : ∀ i ∈ t.items, i.kind.isScalar = true

namespace Token

variable {b : Builtins} {t : Token}

/-- A name that is scanned is resolved. -/
lemma IsLexeme.resolves (h : IsLexeme b t) : t.Resolves b := by
  obtain ⟨c, r, l, position, hread, rfl⟩ := h
  obtain ⟨word, rest, -, -, hbegins⟩ := Lexeme.begins_of_read hread
  refine ⟨fun hk => ?_, fun hk => ?_, nofun⟩
  · obtain ⟨hname, htext, -⟩ := hbegins.of_name (by rw [show l.kind = .field from hk]; decide)
    obtain ⟨f, hf, -⟩ := FieldPath.exists_ofText? (s := String.ofList l.text) (by simpa [htext])
    exact ⟨f, hf⟩
  · obtain ⟨-, rfl, hclass⟩ := hbegins.of_name (by rw [show l.kind = .builtin from hk]; decide)
    exact Lexeme.exists_column_of_classify (hclass.symm.trans hk)

end Token

/-! ## Conditions -/

variable {b : Builtins} {t left operator right : Token} {e : Refusal}

lemma Location.cause_of_ofLeft {otherwise : ConditionCause} (ht : t.Resolves b)
    (hother : otherwise ∉ ConditionCause.precluded) (h : ofLeft b otherwise t = .error e) :
    e.cause ∉ ConditionCause.precluded := by
  unfold ofLeft at h
  split at h
  · next hk =>
    obtain ⟨f, hf⟩ := ht.field hk
    simp [fieldOf, hf, Except.map] at h
  · next hk =>
    obtain ⟨c, hc⟩ := ht.column hk
    simp [columnOf, hc, Except.map] at h
  · obtain rfl := Except.error.inj h
    simp [ConditionCause.precluded]
  · obtain rfl := Except.error.inj h
    simp [ConditionCause.precluded]
  · obtain rfl := Except.error.inj h
    exact hother

lemma Subject.cause_of_ofToken (ht : t.Resolves b) (h : ofToken b t = .error e) :
    e.cause ∉ ConditionCause.precluded := by
  unfold ofToken at h
  split at h
  · cases h
  · cases h
  · exact Location.cause_of_ofLeft ht (by simp [ConditionCause.precluded])
      (Except.map_eq_error_iff.1 h)

/-- The only operand that cannot stand on the right of a comparison is the full text index: null and
the path do not get there. -/
lemma Operand.cause_of_ofToken (ht : t.Resolves b) (hoperand : t.kind.group = .operand)
    (hnull : t.kind ≠ .null) (hpath : t.kind ≠ .path) (h : ofToken b t = .error e) :
    e.cause = .fulltext := by
  unfold ofToken at h
  split at h
  · next hk =>
    obtain ⟨f, hf⟩ := ht.field hk
    simp [Location.fieldOf, hf, Except.map] at h
  · next hk =>
    obtain ⟨c, hc⟩ := ht.column hk
    simp [Location.columnOf, hc, Except.map] at h
  · cases h
  · cases h
  · cases h
  · cases h
  · exact absurd h (listOf_ne_error ht.items)
  · obtain rfl := Except.error.inj h
    rfl
  · cases hk : t.kind <;> simp_all [Kind.group]

/-- What there is to object to a value. -/
lemma Operator.objection?_mem {o : Operator} {v : Operand} {cause : ConditionCause}
    (h : o.objection? v = some cause) :
    cause ∈
      [ConditionCause.listRequired, .listForbidden, .patternRequired o, .regexRequired o] := by
  cases o <;> cases v <;> simp_all [Operator.objection?]

/-- Only comparisons accept `now`. -/
lemma Operator.family_of_objection?_now {o : Operator} (h : o.objection? .now = none) :
    o.family = .comparison := by
  cases o with
  | compare r => rfl
  | like n c => cases h
  | regex n c => cases h
  | member n => cases h

namespace Condition

lemma cause_of_operatorOf {v : Operand} (hoperator : operator.kind.group = .operator)
    (h : operatorOf operator t v = .error e) : e.cause ∉ ConditionCause.precluded := by
  unfold operatorOf at h
  split at h
  · split at h
    · cases h
    · next hcause =>
      obtain rfl := Except.error.inj h
      have hmem := Operator.objection?_mem hcause
      simp only [List.mem_cons, List.not_mem_nil, or_false] at hmem
      rcases hmem with rfl | rfl | rfl | rfl <;> simp [ConditionCause.precluded]
  · next hk =>
    cases hkind : operator.kind with
    | operator o => exact absurd hkind (hk o)
    | _ =>
      rw [hkind] at hoperator
      cases hoperator

lemma cause_of_ofComparison (hl : left.Resolves b) (hr : right.Resolves b)
    (hoperator : operator.kind.group = .operator) (hright : right.kind.group = .operand)
    (hnull : right.kind ≠ .null) (hpath : right.kind ≠ .path)
    (h : ofComparison b left operator right = .error e) : e.cause ∉ ConditionCause.precluded := by
  rcases Except.bind_eq_error_iff.1 h with h | ⟨l, -, h⟩
  · exact Subject.cause_of_ofToken hl h
  rcases Except.bind_eq_error_iff.1 h with h | ⟨r, -, h⟩
  · rw [Operand.cause_of_ofToken hr hright hnull hpath h]
    simp [ConditionCause.precluded]
  rcases Except.bind_eq_error_iff.1 h with h | ⟨o, ho, h⟩
  · exact cause_of_operatorOf hoperator h
  split_ifs at h with _ _ hnow
  · obtain rfl := Except.error.inj h
    simp [ConditionCause.precluded]
  · obtain rfl := Except.error.inj h
    simp [ConditionCause.precluded]
  · -- the operator has accepted `now` before
    obtain ⟨rfl, hfamily⟩ : r = .now ∧ o.family ≠ .comparison := by simpa using hnow
    exact absurd (Operator.family_of_objection?_now (operatorOf_eq_ok_iff.1 ho).2) hfamily

lemma cause_of_ofNull (hl : left.Resolves b) (h : ofNull b left operator = .error e) :
    e.cause ∉ ConditionCause.precluded := by
  unfold ofNull at h
  split at h
  · obtain rfl := Except.error.inj h
    simp [ConditionCause.precluded]
  rcases Except.bind_eq_error_iff.1 h with h | ⟨l, -, h⟩
  · exact Location.cause_of_ofLeft hl (by simp [ConditionCause.precluded]) h
  split at h
  · obtain rfl := Except.error.inj h
    simp [ConditionCause.precluded]
  · split at h
    · cases h
    · cases h
    · obtain rfl := Except.error.inj h
      simp [ConditionCause.precluded]

lemma cause_of_ofLone (ht : t.Resolves b) (h : ofLone t = .error e) :
    e.cause ∉ ConditionCause.precluded := by
  unfold ofLone at h
  split at h
  · next hk =>
    obtain ⟨f, hf⟩ := ht.field hk
    simp [Location.fieldOf, hf, Except.map] at h
  all_goals
    obtain rfl := Except.error.inj h
    simp [ConditionCause.precluded]

/-! ## Paths -/

variable {path value : Token} {kind : Kind}

lemma cause_of_localeOf (h : localeOf path = .error e) : e.cause = .invalidPath := by
  unfold localeOf at h
  split at h
  · split at h
    · cases h
    · obtain rfl := Except.error.inj h
      rfl
  · split at h
    · split at h <;> cases h
    · obtain rfl := Except.error.inj h
      rfl
  · obtain rfl := Except.error.inj h
    rfl

lemma cause_of_ofPath (hv : value.Resolves b) (hoperator : operator.kind.group = .operator)
    (h : ofPath b path operator value kind = .error e) : e.cause ∉ ConditionCause.precluded := by
  -- what follows when the value is read, which is done in one of two ways
  have hrest : ∀ v : Operand, (do
      let _ ← operatorOf operator value v
      let locale ← localeOf path
      return urlPath kind v locale) = Except.error e → e.cause ∉ ConditionCause.precluded := by
    intro v h
    rcases Except.bind_eq_error_iff.1 h with h | ⟨o, -, h⟩
    · exact cause_of_operatorOf hoperator h
    rcases Except.bind_eq_error_iff.1 h with h | ⟨locale, -, h⟩
    · rw [cause_of_localeOf h]
      simp [ConditionCause.precluded]
    · cases h
  unfold ofPath at h
  split at h
  · exact hrest _ h
  · next hk =>
    rcases Except.bind_eq_error_iff.1 h with h | ⟨v, -, h⟩
    · rw [Operand.cause_of_ofToken hv (by rw [hk]; rfl) (by simp [hk]) (by simp [hk]) h]
      simp [ConditionCause.precluded]
    · exact hrest v h
  · obtain rfl := Except.error.inj h
    simp [ConditionCause.precluded]

lemma cause_of_ofTriple (hl : left.Resolves b) (hr : right.Resolves b)
    (hoperator : operator.kind.group = .operator) (hright : right.kind.group = .operand)
    (h : ofTriple b left operator right = .error e) : e.cause ∉ ConditionCause.precluded := by
  unfold ofTriple at h
  split at h
  · exact cause_of_ofNull hl h
  next hnull =>
  split at h
  · unfold ofUrlPath at h
    split at h
    · exact cause_of_ofPath hr hoperator h
    · split at h
      · exact cause_of_ofPath hl hoperator h
      · obtain rfl := Except.error.inj h
        simp [ConditionCause.precluded]
  · next hpath =>
    exact cause_of_ofComparison hl hr hoperator hright hnull (not_or.1 hpath).2 h

end Condition

/-- The groups of the tokens of a clause of three. -/
lemma Filter.Derives.group_of_triple {ts : List Token} {ps : List Part} (h : Derives .term ts ps)
    (hps : ps = [.clause (.triple left operator right)]) :
    operator.group = .operator ∧ right.group = .operand := by
  cases h with
  | parens => simp at hps
  | lone => simp at hps
  | triple _ ho hr =>
    obtain ⟨rfl, rfl, rfl⟩ : _ = left ∧ _ = operator ∧ _ = right := by simpa using hps
    exact ⟨ho, hr⟩

/-- A clause of resolved tokens is not refused for a precluded cause. -/
lemma Filter.Clause.cause_of_condition {ctx : Context} {clause : Clause}
    (hterm : Derives .term clause.tokens [.clause clause])
    (hresolves : ∀ t ∈ clause.tokens, t.Resolves ctx.builtins)
    (hgroup : ∀ t ∈ clause.tokens, t.group = t.kind.group)
    (h : clause.condition ctx = .error e) : e.cause ∉ ConditionCause.precluded := by
  cases clause with
  | lone t => exact Condition.cause_of_ofLone (hresolves t (by simp [tokens])) h
  | triple left operator right =>
    obtain ⟨ho, hr⟩ := hterm.group_of_triple rfl
    simp only [tokens, List.forall_mem_cons] at hresolves hgroup
    exact Condition.cause_of_ofTriple hresolves.1 hresolves.2.2.1 (hgroup.2.1 ▸ ho)
      (hgroup.2.2.1 ▸ hr) h

/-! ## The reader -/

namespace Filter.Reader

variable {ctx : Context} {s : Reader} {t : Token} {tail ts full : List Token}
  {e : Flagged Cause}

/-- A step fails neither at a bracket, if there is none, nor for what only the end can tell. -/
lemma cause_of_step (ht : t.group ≠ .leftBracket ∧ t.group ≠ .rightBracket)
    (h : s.step ctx t tail = .error e) : e.cause ∉ ShapeCause.precluded.map .shape := by
  obtain ⟨hend, hbracket⟩ := cause_notMem_ofEnds_of_step h
  intro hmem
  rcases List.mem_map.1 hmem with ⟨cause, hcause, heq⟩
  simp only [ShapeCause.precluded, List.mem_cons, List.not_mem_nil, or_false] at hcause
  rcases hcause with rfl | rfl
  · exact (hbracket heq.symm).elim ht.1 ht.2
  · exact hend (heq ▸ by decide)

/-- A run without brackets does not end where a term is due: an open parenthesis is noticed first,
and a connective is not read if nothing follows. -/
lemma cause_of_run (hbrackets : ∀ u ∈ full, u.group ≠ .leftBracket ∧ u.group ≠ .rightBracket)
    (h : s.run ctx ts = .error e) (hs : Placed full s ts) :
    e.cause ∉ ShapeCause.precluded.map .shape := by
  fun_induction run ctx s ts with
  | case1 s =>
    have h := Except.map_eq_error_iff.1 h
    unfold finish at h
    split at h
    · obtain rfl := Except.error.inj h
      simp [ShapeCause.precluded]
    · next hopened =>
      split at h
      · next hready => exact absurd rfl (hs.due hready hopened)
      · cases h
  | case2 s t tail e' hstep =>
    obtain rfl := Except.error.inj h
    exact cause_of_step (hbrackets t (hs.suffix.subset List.mem_cons_self)) hstep
  | case3 s t tail p hstep ih =>
    exact ih (Except.map_eq_error_iff.1 h) (hs.of_steps (step_eq_ok_iff.1 hstep))

end Filter.Reader

/-- Tokens that are no brackets are not refused for a precluded cause concerning their shape. -/
lemma Filter.cause_of_read {ctx : Context} {ts : List Token} {e : Flagged Cause}
    (hbrackets : ∀ t ∈ ts, t.group ≠ .leftBracket ∧ t.group ≠ .rightBracket)
    (h : read ctx ts = .error e) : e.cause ∉ ShapeCause.precluded.map .shape := by
  unfold read at h
  split at h
  · obtain rfl := Except.error.inj h
    decide
  · next hne =>
    exact Reader.cause_of_run hbrackets h
      ⟨List.suffix_refl ts, nofun, fun _ _ => by simpa using hne⟩

/-! ## Filters -/

namespace Compiler

variable {c : Compiler} {query : String} {raw ts : List Token} {e : ParseError}

/-- What a filter is cut into and folded to is resolved. -/
lemma resolves_of_folds (hraw : Token.ofSource c.builtins query = .ok raw)
    (hfolds : Token.Folds query none raw ts) : ∀ t ∈ ts, t.Resolves c.builtins := by
  intro t ht
  have hlex : ∀ u ∈ raw, Token.IsLexeme c.builtins u := fun u hu =>
    Scanner.exists_lexeme_of_mem_tokens hraw hu
  obtain ⟨runs, rfl, hruns⟩ := hfolds.exists_segments nofun
  obtain ⟨run, hrun, hsegment⟩ := Token.exists_run_of_mem hruns ht
  cases hsegment with
  | plain => exact (hlex t (hrun.subset (List.mem_singleton_self t))).resolves
  | list _ _ hscalars => exact ⟨nofun, nofun, fun i hi => (hscalars i hi).2⟩

/-- The tokens of a filter are not refused for a precluded cause. -/
lemma cause_of_read {f : Flagged Cause} (hraw : Token.ofSource c.builtins query = .ok raw)
    (hfold : Token.foldBrackets query raw = .ok ts) (h : read c.context ts = .error f) :
    f.cause ∉ Cause.precluded := by
  have hfolds := Token.folds_of_foldFrom hfold
  have hshape := Filter.cause_of_read (fun t ht => hfolds.not_bracket ht) h
  rw [Cause.precluded, List.mem_append, not_or]
  refine ⟨hshape, fun hmem => ?_⟩
  obtain ⟨cause, hcause, heq⟩ := List.mem_map.1 hmem
  by_cases hts : ts = []
  · subst hts
    obtain rfl := Except.error.inj h
    cases heq
  · have htokens := tokens_eq_ok_iff.2 ⟨raw, hraw, hfold⟩
    obtain ⟨runs, hflat, hruns⟩ := hfolds.exists_segments nofun
    obtain rfl : runs.flatten = raw := hflat
    have hblames := blames_of_read (fun t ht hgroup => Token.IsLexeme.len_of_leftParen
      (Scanner.exists_lexeme_of_mem_tokens hraw
        (Token.mem_flatten_of_leftParen hruns ht hgroup)) hgroup) hts h
    obtain ⟨clause, t, hterm, hin, hrefused, -⟩ := hblames.exists_refused heq.symm
    exact clause.cause_of_condition hterm
      (fun u hu => resolves_of_folds hraw hfolds u (hin.subset hu))
      (fun u hu => (fromSource_of_mem_tokens htokens (hin.subset hu)).group_eq) hrefused hcause

/-- No filter is refused for a cause that is precluded, and the wordings of these causes are not
shown: that on the elements of lists is shown for another cause only. -/
theorem cause_notMem_precluded (h : c.parse query = .error e) :
    e.cause ∉ Cause.precluded ∧ ∀ cause ∈ Cause.precluded, e.message = cause.message →
      cause = .condition .listItem ∧ e.cause = .list .notAScalar := by
  have hcause : e.cause ∉ Cause.precluded := by
    rcases Except.bind_eq_error_iff.1 h with hscan | ⟨raw, hscan, hrest⟩
    · obtain ⟨f, -, rfl⟩ := Except.mapError_eq_error_iff.1 hscan
      simp [ParseError.inSource, Flagged.map, Cause.precluded]
    rw [Token.scan, Except.mapError_eq_ok_iff] at hscan
    rcases Except.bind_eq_error_iff.1 hrest with hfold | ⟨ts, hfold, hread⟩
    · obtain ⟨f, -, rfl⟩ := Except.mapError_eq_error_iff.1 hfold
      simp [ParseError.inSource, Flagged.map, Cause.precluded]
    rw [Token.foldLists, Except.mapError_eq_ok_iff] at hfold
    obtain ⟨f, hf, rfl⟩ := Except.mapError_eq_error_iff.1 hread
    exact cause_of_read hscan hfold hf
  refine ⟨hcause, fun cause hmem hmessage => ?_⟩
  rcases Cause.eq_of_message hmem hmessage with heq | ⟨heq, hitem⟩
  · exact absurd (heq ▸ hmem) hcause
  · exact ⟨hitem, heq⟩

/-- A name in a list is refused with the wording for its elements, and `now` that is matched with a
pattern for the pattern it is not. -/
theorem cause_notMem_precluded_of_list :
    (∃ e, (ofDialect .postgres .empty).parse "tags @ ['a', title]" = .error e ∧
      e.message = "Lists may only contain strings, numbers and booleans" ∧
      e.cause = .list .notAScalar ∧ e.cause ∉ Cause.precluded) ∧
    ∃ e, (ofDialect .sqlite .empty).parse "published ~ now" = .error e ∧
      e.cause = .condition (.regexRequired (.regex false false)) ∧ e.cause ∉ Cause.precluded := by
  have hlist := Except.map_eq_error_iff.1 (by decide +kernel :
    ((ofDialect .postgres .empty).parse "tags @ ['a', title]").map (fun _ => ()) =
      .error ⟨.list .notAScalar, some ⟨"tags @ ['a', title]", 13, 5⟩⟩)
  have hnow := Except.map_eq_error_iff.1 (by decide +kernel :
    ((ofDialect .sqlite .empty).parse "published ~ now").map (fun _ => ()) =
      .error ⟨.condition (.regexRequired (.regex false false)), some ⟨"published ~ now", 12, 3⟩⟩)
  have hitem := (cause_notMem_precluded hlist).2 (.condition .listItem) (by decide) rfl
  exact ⟨⟨_, hlist, rfl, hitem.2, (cause_notMem_precluded hlist).1⟩,
    ⟨_, hnow, rfl, (cause_notMem_precluded hnow).1⟩⟩

end Compiler
end ContentFilter
