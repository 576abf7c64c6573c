import ContentFilter.Proofs.Condition.Wildcards
import ContentFilter.Proofs.Filter.Compiled
/-!
# No wildcard is dropped

A field with a wildcard is a token of some clause of the filter, and in this clause it stands alone
or on the left of a literal (`Filter.Clause.Ranges`): every other place is refused to it.  What is
written for such a clause heeds the wildcard (`Condition.HeedsWildcard`), and it is not what is
written for the same clause with another wildcard or with none (`Compiler.wildcards_heeded`).
-/

namespace ContentFilter

open ContentFilter.Filter

variable {b : Builtins} {t u left operator right : Token} {f g : FieldPath}

/-! ## Every field is in a clause -/

/-- Only scalars are taken into lists, and other operands stay where they are. -/
lemma Token.Folds.mem_of_not_scalar {source : String} {o : Option OpenList} {ts us : List Token}
    (h : Folds source o ts us) (ht : t ∈ ts) (hgroup : t.group = .operand)
    (hscalar : t.kind.isScalar = false) : t ∈ us := by
  induction h with
  | done => cases ht
  | opens hg _ ih =>
    rcases List.mem_cons.1 ht with rfl | ht
    · simp [hg] at hgroup
    · exact ih ht
  | closes hg _ _ ih =>
    rcases List.mem_cons.1 ht with rfl | ht
    · simp [hg] at hgroup
    · exact List.mem_cons_of_mem _ (ih ht)
  | item hpush _ ih =>
    rcases List.mem_cons.1 ht with rfl | ht
    · simp [(OpenList.push_eq_ok hpush).2.1] at hscalar
    · exact ih ht
  | keep _ _ _ ih =>
    rcases List.mem_cons.1 ht with rfl | ht
    · exact List.mem_cons_self
    · exact List.mem_cons_of_mem _ (ih ht)

namespace Filter

/-- Every operand of an expression is in a clause of it. -/
lemma Derives.exists_clause {s : Symbol} {ts : List Token} {ps : List Part} (h : Derives s ts ps)
    (ht : t ∈ ts) (hgroup : t.group = .operand) :
    ∃ clause : Clause, Part.clause clause ∈ ps ∧ t ∈ clause.tokens := by
  induction h with
  | single _ ih => exact ih ht
  | join _ hc _ ih₁ ih₂ =>
    rcases List.mem_append.1 ht with ht | ht
    · obtain ⟨clause, hclause, hmem⟩ := ih₁ ht
      exact ⟨clause, List.mem_append_left _ hclause, hmem⟩
    · rcases List.mem_cons.1 ht with rfl | ht
      · simp [hc] at hgroup
      · obtain ⟨clause, hclause, hmem⟩ := ih₂ ht
        exact ⟨clause, List.mem_append_right _ (List.mem_cons_of_mem _ hclause), hmem⟩
  | parens hl _ hr ih =>
    rcases List.mem_cons.1 ht with rfl | ht
    · simp [hl] at hgroup
    · rcases List.mem_append.1 ht with ht | ht
      · obtain ⟨clause, hclause, hmem⟩ := ih ht
        exact ⟨clause, List.mem_cons_of_mem _ (List.mem_append_left _ hclause), hmem⟩
      · obtain rfl := List.mem_singleton.1 ht
        simp [hr] at hgroup
  | lone _ => exact ⟨_, List.mem_singleton_self _, ht⟩
  | triple _ _ _ => exact ⟨_, List.mem_singleton_self _, ht⟩

/-- The clauses among the parts of a tree are those of the tree. -/
lemma Tree.mem_atoms_of_mem_parts {l : Level} (T : Tree Clause l) {clause : Clause}
    (h : Part.clause clause ∈ T.parts) : clause ∈ T.atoms := by
  induction T with
  | atom a => simpa [parts, atoms] using h
  | group e ih => exact ih (by simpa [parts] using h)
  | ofTerm T ih => exact ih h
  | and T U ihT ihU =>
    have h : Part.clause clause ∈ T.parts ∨ Part.clause clause ∈ U.parts := by
      simpa [parts] using h
    exact List.mem_append.2 (h.imp ihT ihU)
  | ofConj U ih => exact ih h
  | or U D ihU ihD =>
    have h : Part.clause clause ∈ U.parts ∨ Part.clause clause ∈ D.parts := by
      simpa [parts] using h
    exact List.mem_append.2 (h.imp ihU ihD)

end Filter

/-! ## Fields with wildcards in conditions -/

lemma Location.Reads.eq_field {l : Location} (h : l.Reads b t) (ht : t.IsField f) :
    l = .field f := by
  cases h with
  | field _ hf => rw [Option.some.inj (hf.symm.trans ht.2)]
  | column hk _ =>
    rw [ht.1] at hk
    cases hk

lemma Subject.Reads.eq_field {l : Subject} (h : l.Reads b t) (ht : t.IsField f) :
    l = .location (.field f) := by
  cases h with
  | location hl => rw [hl.eq_field ht]
  | number hk | boolean hk =>
    rw [ht.1] at hk
    cases hk

lemma Operand.Reads.eq_field {v : Operand} (h : v.Reads b t) (ht : t.IsField f) :
    v = .location (.field f) := by
  cases h with
  | location hl => rw [hl.eq_field ht]
  | string hk | number hk | boolean hk | now hk | list hk _ =>
    rw [ht.1] at hk
    cases hk

/-- The token of a literal. -/
lemma Operand.Reads.kind_of_isLiteral {v : Operand} (h : v.Reads b t) (hv : v.isLiteral = true) :
    t.kind ∈ [Kind.string, .number, .boolean, .list] := by
  cases h with
  | location _ | now _ => cases hv
  | string hk | number hk | boolean hk | list hk _ => simp [hk]

/-- The free code of a literal is a number. -/
lemma Operand.Reads.number_of_mem_codes {v : Operand} (h : v.Reads b t) (hv : v.isLiteral = true)
    {x : String} (hx : x ∈ v.codes) : t.kind = .number ∧ t.lexeme = x := by
  cases h with
  | location _ | now _ => cases hv
  | number hk => exact ⟨hk, (List.mem_singleton.1 hx).symm⟩
  | string _ | boolean _ | list _ _ => cases hx

namespace Condition

variable {c : Condition}

/-- A field with a wildcard is on the left of a literal. -/
lemma Reads.left_of_wildcard (h : c.Reads b left operator right)
    (hmem : t ∈ [left, operator, right]) (ht : t.IsField f) (hf : f.wildcard.isSome = true) :
    t = left ∧ ∃ o v, operator.kind = .operator o ∧ v.Reads b right ∧ v.isLiteral = true ∧
      o.objection? v = none ∧ c = .comparison (.location (.field f)) o v := by
  simp only [List.mem_cons, List.not_mem_nil, or_false] at hmem
  have hfield := ht.1
  cases h with
  | nullity _ hright hl hplain hk =>
    rcases hmem with rfl | rfl | rfl
    · rw [hl.eq_field ht, Location.hasWildcard, hf] at hplain
      cases hplain
    · simp [hk] at hfield
    · simp [hright] at hfield
  | pathLeft hleft hvalue _ hk _ _ =>
    rcases hmem with rfl | rfl | rfl
    · simp [hleft] at hfield
    · simp [hk] at hfield
    · simp [hfield] at hvalue
  | pathRight hright hvalue _ hk _ _ =>
    rcases hmem with rfl | rfl | rfl
    · simp [hfield] at hvalue
    · simp [hk] at hfield
    · simp [hright] at hfield
  | @comparison l o v hl hv hk ho hright hleft _ =>
    rcases hmem with rfl | rfl | rfl
    · obtain rfl := hl.eq_field ht
      exact ⟨rfl, o, v, hk, hv, hleft hf, ho, rfl⟩
    · simp [hk] at hfield
    · rw [hv.eq_field ht, Operand.hasWildcard, Location.hasWildcard, hf] at hright
      cases hright

/-- Any field can be compared with a literal that the operator accepts. -/
lemma Reads.of_literal {o : Operator} {v : Operand} (ht : t.IsField f)
    (hk : operator.kind = .operator o) (hv : v.Reads b right) (hliteral : v.isLiteral = true)
    (ho : o.objection? v = none) :
    (Condition.comparison (.location (.field f)) o v).Reads b t operator right := by
  refine .comparison (.location (.field ht.1 ht.2)) hv hk ho ?_ (fun _ => hliteral) ?_
  · cases v <;> first | rfl | cases hliteral
  · rintro rfl
    cases hliteral

end Condition

namespace Filter.Clause

variable {ctx : Context} {clause : Clause} {condition : Condition}

/-- The token stands alone in the clause, or on the left of a literal. -/
inductive Ranges (t : Token) : Clause → Prop
  | lone : Ranges t (.lone t)
  | triple {operator right : Token} {o : Operator} :
      operator.kind = .operator o → right.kind ∈ [Kind.string, .number, .boolean, .list] →
      Ranges t (.triple t operator right)

/-- The clause with another token in the first place. -/
def withFirst (u : Token) : Clause → Clause
  | lone _ => lone u
  | triple _ operator right => triple u operator right

/-- A clause with a field that has a wildcard asks about the field. -/
lemma asksAbout_of_wildcard (h : clause.condition ctx = .ok condition) (ht : t ∈ clause.tokens)
    (hfield : t.IsField f) (hf : f.wildcard.isSome = true) :
    clause.Ranges t ∧ condition.AsksAbout f := by
  cases clause with
  | lone u =>
    obtain rfl := List.mem_singleton.1 ht
    obtain ⟨g, -, hg, rfl⟩ := Condition.ofLone_eq_ok_iff.1 h
    obtain rfl := Option.some.inj (hg.symm.trans hfield.2)
    exact ⟨.lone, .presence⟩
  | triple left operator right =>
    obtain ⟨rfl, o, v, hk, hv, hliteral, -, rfl⟩ :=
      (Condition.ofTriple_eq_ok_iff.1 h).left_of_wildcard ht hfield hf
    exact ⟨.triple hk (hv.kind_of_isLiteral hliteral), .comparison hliteral⟩

/-- A field with a wildcard can be replaced by any other field. -/
lemma exists_condition_withFirst (h : clause.condition ctx = .ok condition)
    (ht : t ∈ clause.tokens) (hfield : t.IsField f) (hf : f.wildcard.isSome = true)
    (hu : u.IsField g) :
    ∃ condition', (clause.withFirst u).condition ctx = .ok condition' ∧
      condition'.AsksAbout g ∧ condition'.codes = condition.codes := by
  cases clause with
  | lone _ =>
    obtain ⟨_, -, -, rfl⟩ := Condition.ofLone_eq_ok_iff.1 h
    exact ⟨_, Condition.ofLone_eq_ok_iff.2 ⟨g, hu.1, hu.2, rfl⟩, .presence, rfl⟩
  | triple left operator right =>
    obtain ⟨-, o, v, hk, hv, hliteral, ho, rfl⟩ :=
      (Condition.ofTriple_eq_ok_iff.1 h).left_of_wildcard ht hfield hf
    exact ⟨_, Condition.ofTriple_eq_ok_iff.2 (.of_literal hu hk hv hliteral ho),
      .comparison hliteral, rfl⟩

/-- The free code of a clause with a field that has a wildcard is made of numbers. -/
lemma hasNumbers_of_wildcard (h : clause.condition ctx = .ok condition) (ht : t ∈ clause.tokens)
    (hfield : t.IsField f) (hf : f.wildcard.isSome = true)
    (hsource : ∀ r ∈ clause.tokens, r.FromSource ctx.builtins) : condition.HasNumbers := by
  intro x hx
  cases clause with
  | lone _ => simp [Condition.codes_of_ofLone h] at hx
  | triple left operator right =>
    obtain ⟨-, o, v, -, hv, hliteral, -, rfl⟩ :=
      (Condition.ofTriple_eq_ok_iff.1 h).left_of_wildcard ht hfield hf
    obtain ⟨hk, rfl⟩ := hv.number_of_mem_codes hliteral hx
    exact (hsource right (by simp [tokens])).isNumberChar hk

end Filter.Clause

/-! ## Fields with wildcards in filters -/

namespace Compiler

variable {c : Compiler} {query : String} {ns : List Node} {clause : Clause} {condition : Condition}

/-- Every clause of an accepted filter is a condition of it. -/
lemma exists_condition_of_mem {T : Tree Clause .disj} {C : Tree Condition .disj}
    (hC : T.map (Clause.condition c.context) = C.map .ok) (hclause : clause ∈ T.atoms) :
    ∃ condition ∈ C.atoms, clause.condition c.context = .ok condition := by
  have hmem : clause.condition c.context ∈ (C.map Except.ok).atoms := by
    rw [← hC, Tree.atoms_map]
    exact List.mem_map_of_mem hclause
  rw [Tree.atoms_map] at hmem
  obtain ⟨condition, hcondition, heq⟩ := List.mem_map.1 hmem
  exact ⟨condition, hcondition, heq.symm⟩

/-- The clause is written differently with a field that has another wildcard or none; SQLite only
tells a wildcard from none. -/
def TellsWildcard (c : Compiler) (clause : Clause) (f : FieldPath) (condition : Condition) : Prop :=
  ∀ (u : Token) (g : FieldPath), u.IsField g → g.wildcard ≠ f.wildcard →
    ∃ condition', (clause.withFirst u).condition c.context = .ok condition' ∧
      (c.dialect = .postgres ∨ g.wildcard = none → ∀ sink sink',
        ((condition.template c.dialect).fill sink).1 ≠
          ((condition'.template c.dialect).fill sink').1)

/-- No wildcard is dropped in a filter with the tokens `raw`, the tree `T` and the nodes `ns`. -/
structure KeepsWildcards (c : Compiler) (query : String) (ns : List Node) (raw : List Token)
    (T : Tree Clause .disj) : Prop where
  tokens : Token.ofSource c.builtins query = .ok raw
  tree : c.HasTree query T
  /-- Every field is a token of a clause. -/
  covered : ∀ t ∈ raw, t.kind = .field → ∃ clause ∈ T.atoms, t ∈ clause.tokens
  /-- A field with a wildcard stands there alone, or on the left of a literal. -/
  ranges : ∀ clause ∈ T.atoms, ∀ t ∈ clause.tokens, ∀ f, t.IsField f → f.wildcard.isSome = true →
    clause.Ranges t
  /-- The clause is a condition among the nodes, the text of which heeds the wildcard. -/
  heeded : ∀ clause ∈ T.atoms, ∀ t ∈ clause.tokens, ∀ f, t.IsField f → f.wildcard.isSome = true →
    ∃ condition, clause.condition c.context = .ok condition ∧
      .condition c.dialect condition ∈ ns ∧ condition.HeedsWildcard c.dialect f ∧
      c.TellsWildcard clause f condition

lemma tellsWildcard (h : clause.condition c.context = .ok condition) (ht : t ∈ clause.tokens)
    (hfield : t.IsField f) (hf : f.wildcard.isSome = true)
    (hnumbers : condition.HasNumbers) : c.TellsWildcard clause f condition := by
  intro u g hu hne
  obtain ⟨condition', h', hasks', hcodes⟩ :=
    Clause.exists_condition_withFirst h ht hfield hf hu
  have hnumbers' : condition'.HasNumbers := fun x hx => hnumbers x (hcodes ▸ hx)
  have hasks := (Clause.asksAbout_of_wildcard h ht hfield hf).2
  exact ⟨condition', h', fun hd => hasks.fill_ne hasks' hfield.wellFormed hu.wellFormed hnumbers
    hnumbers' hne hd⟩

/-- In an accepted filter a field with a wildcard stands alone or on the left of a literal, and what
is written for it is at the place that the wildcard stands for, and tells the wildcard. -/
theorem wildcards_heeded (h : c.parse query = .ok ns) :
    ∃ raw T, KeepsWildcards c query ns raw T := by
  obtain ⟨T, C, hT, hC, rfl⟩ := parse_eq_ok h
  have ⟨ts, hts, hderives⟩ := hT
  obtain ⟨raw, hraw, hfold⟩ := tokens_eq_ok_iff.1 hts
  refine ⟨raw, T, hraw, hT, fun t ht hk => ?_, fun clause hclause t ht f hfield hf => ?_,
    fun clause hclause t ht f hfield hf => ?_⟩
  · have hgroup : t.group = .operand := by
      rw [Token.FromSource.group_eq (.inl (Scanner.exists_lexeme_of_mem_tokens hraw ht)), hk]
      rfl
    have hmem := (Token.folds_of_foldFrom hfold).mem_of_not_scalar ht hgroup (by rw [hk]; rfl)
    obtain ⟨clause, hclause, hclausemem⟩ := hderives.exists_clause hmem hgroup
    exact ⟨clause, T.mem_atoms_of_mem_parts hclause, hclausemem⟩
  · obtain ⟨condition, -, hcondition⟩ := exists_condition_of_mem hC hclause
    exact (Clause.asksAbout_of_wildcard hcondition ht hfield hf).1
  · obtain ⟨condition, hmem, hcondition⟩ := exists_condition_of_mem hC hclause
    have hsource : ∀ r ∈ clause.tokens, r.FromSource c.builtins := fun r hr =>
      fromSource_of_mem_tokens hts (hderives.mem_of_clause (T.clause_mem_parts hclause) r hr)
    have hnumbers := Clause.hasNumbers_of_wildcard hcondition ht hfield hf hsource
    have hasks := (Clause.asksAbout_of_wildcard hcondition ht hfield hf).2
    exact ⟨condition, hcondition, C.mem_nodes.2 ⟨rfl, hmem⟩,
      hasks.heedsWildcard hfield.wellFormed hnumbers hf,
      tellsWildcard hcondition ht hfield hf hnumbers⟩

/-- A pattern on the items of one field, a number that any member of another is compared with, and a
field that has members. -/
theorem wildcards_heeded_of_three_fields :
    ∃ ns raw T, (ofDialect .postgres .empty).parse "a.? ~~ 'x%' & (b.c.* > 5 | d.*)" = .ok ns ∧
      KeepsWildcards (ofDialect .postgres .empty) "a.? ~~ 'x%' & (b.c.* > 5 | d.*)" ns raw T ∧
      ∃ t ∈ raw, t.IsField ⟨"b", ["c"], some .any⟩ := by
  obtain ⟨ns, hns⟩ : ∃ ns,
      (ofDialect .postgres .empty).parse "a.? ~~ 'x%' & (b.c.* > 5 | d.*)" = .ok ns :=
    Except.exists_of_isOk (by decide +kernel)
  obtain ⟨raw, T, hkeeps⟩ := wildcards_heeded hns
  have hfields : (Token.ofSource .empty "a.? ~~ 'x%' & (b.c.* > 5 | d.*)").map
      (List.any · fun t => t.kind = .field ∧
        FieldPath.ofText? t.lexeme = some ⟨"b", ["c"], some .any⟩) = .ok true := by
    decide +kernel
  have htokens : Token.ofSource .empty "a.? ~~ 'x%' & (b.c.* > 5 | d.*)" = .ok raw := hkeeps.tokens
  rw [htokens] at hfields
  obtain ⟨t, ht, hfield⟩ := List.any_eq_true.1 (Except.ok.inj hfields)
  exact ⟨ns, raw, T, hns, hkeeps, t, ht, by simpa [Token.IsField] using hfield⟩

end Compiler
end ContentFilter
