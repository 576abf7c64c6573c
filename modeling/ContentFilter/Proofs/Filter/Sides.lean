import ContentFilter.Proofs.Filter.Nullity
import ContentFilter.Proofs.Token.Between
/-!
# The path on either side

A path means the same on both sides of a comparison: with the operator read from the other side, the
filter is accepted in the same cases and compiled to the same SQL with the same values
(`Compiler.compile_join_swapped`).  The path takes up with a string only, and its locale has to be
well formed, on whichever side it stands (`Condition.reads_path_left_iff`,
`Condition.reads_path_right_iff`); on the right it does not take any operator but the comparisons.
-/

namespace ContentFilter

open ContentFilter.Filter

namespace Condition

variable {b : Builtins} {left operator right : Token} {c : Condition} {o : Operator} {r : Relation}
  {t u : Token} {locale : Option String}

/-- The locale is told by the text of the path alone. -/
lemma localeOf_congr (h : t.lexeme = u.lexeme) :
    localeOf t = .ok locale ↔ localeOf u = .ok locale := by
  unfold localeOf
  rw [h]
  split
  · split_ifs <;> simp
  · split_ifs <;> simp
  · simp

/-- What the path is compared with is a string. -/
lemma operand_of_compare {v : Operand} (hvalue : t.kind = .string ∨ t.kind = .list)
    (hreads : v.Reads b t) (hv : (Operator.compare r).objection? v = none) :
    t.kind = .string ∧ v = .string t.lexeme := by
  cases hreads with
  | string hk => exact ⟨hk, rfl⟩
  | list hk _ => cases hv
  | location hl => rcases hl.kind_eq with hk | hk <;> simp [hk] at hvalue
  | number hk => simp [hk] at hvalue
  | boolean hk => simp [hk] at hvalue
  | now hk => simp [hk] at hvalue

/-- The path on the left is compared with strings. -/
lemma reads_path_left_iff (hoperator : operator.kind = .operator (.compare r))
    (hpath : left.kind = .path) :
    c.Reads b left operator right ↔ right.kind = .string ∧ ∃ locale, localeOf left = .ok locale ∧
      c = .urlPath (.operator (.compare r)) (.string right.lexeme) locale := by
  constructor
  · intro h
    cases h with
    | nullity _ _ hl _ _ => rcases hl.kind_eq with hk | hk <;> simp [hk] at hpath
    | pathLeft _ hvalue hreads hk hv hlocale =>
      obtain rfl := Kind.operator.inj (hk.symm.trans hoperator)
      obtain ⟨hstring, rfl⟩ := operand_of_compare hvalue hreads hv
      exact ⟨hstring, _, hlocale, rfl⟩
    | pathRight _ hvalue _ _ _ _ => simp [hpath] at hvalue
    | comparison hl _ _ _ _ _ _ => exact absurd hpath hl.kind_ne_path
  · rintro ⟨hstring, locale, hlocale, rfl⟩
    exact .pathLeft hpath (.inl hstring) (.string hstring) hoperator rfl hlocale

/-- The path on the right is compared with strings, and it takes no other operators. -/
lemma reads_path_right_iff (hoperator : operator.kind = .operator o) (hpath : right.kind = .path) :
    c.Reads b left operator right ↔ left.kind = .string ∧ ∃ r locale, o = .compare r ∧
      localeOf right = .ok locale ∧
      c = .urlPath (.operator (.compare r.swapped)) (.string left.lexeme) locale := by
  constructor
  · intro h
    cases h with
    | nullity _ hnull _ _ _ => simp [hpath] at hnull
    | pathLeft _ hvalue _ _ _ _ => simp [hpath] at hvalue
    | pathRight _ hvalue hreads hk hv hlocale =>
      obtain rfl := Kind.operator.inj (hoperator.symm.trans hk)
      obtain ⟨hstring, rfl⟩ := operand_of_compare hvalue hreads hv
      exact ⟨hstring, _, _, rfl, hlocale, rfl⟩
    | comparison _ hr _ _ _ _ _ => exact absurd hpath hr.kind_ne.1
  · rintro ⟨hstring, r, locale, rfl, hlocale, rfl⟩
    exact .pathRight hpath (.inl hstring) (.string hstring) hoperator rfl hlocale

end Condition

namespace Compiler

open Token (FoldedTo OfOperand)

variable {c : Compiler} {query : String} {ls rs : List Token} {left operator right : Token}
  {ns : List Node}

/-- What is made of two operands with an operator between them is a condition. -/
lemma exists_condition_of_parse
    (hraw : Token.ofSource c.builtins query = .ok (ls ++ operator :: rs))
    (hl : OfOperand ls) (hr : OfOperand rs) (ho : operator.group = .operator)
    (h : c.parse query = .ok ns) : ∃ left right condition, FoldedTo ls left ∧ FoldedTo rs right ∧
      condition.Reads c.builtins left operator right ∧
      ns = [.condition c.dialect condition] := by
  obtain ⟨ts, hts⟩ := exists_tokens_of_parse h
  obtain ⟨raw, hraw', hfold⟩ := tokens_eq_ok_iff.1 hts
  obtain rfl := Except.ok.inj (hraw.symm.trans hraw')
  have hfolds := Token.folds_of_foldFrom hfold
  obtain ⟨left, us, rfl, hleft, hleft', hrest⟩ := hl.exists_folded hfolds
  cases hrest with
  | opens hg _ =>
    rw [ho] at hg
    cases hg
  | keep _ _ htail =>
    rw [← List.append_nil rs] at htail
    obtain ⟨right, vs, rfl, hright, hright', hdone⟩ := hr.exists_folded htail
    cases hdone
    obtain ⟨condition, hreads, rfl⟩ := (parse_triple hts hleft' ho hright').1 h
    exact ⟨left, right, condition, hleft, hright, hreads, rfl⟩

/-- Three tokens that are not changed by folding make the condition that they read as. -/
lemma parse_of_reads {condition : Condition}
    (hraw : Token.ofSource c.builtins query = .ok [left, operator, right])
    (hl : left.group = .operand) (ho : operator.group = .operator) (hr : right.group = .operand)
    (h : condition.Reads c.builtins left operator right) :
    c.parse query = .ok [.condition c.dialect condition] := by
  have hfold : Token.foldBrackets query [left, operator, right] = .ok [left, operator, right] :=
    Token.foldFrom_eq_ok_iff.2 (Token.folds_self (by simp [hl, ho, hr]))
  exact (parse_triple (tokens_eq_ok_iff.2 ⟨_, hraw, hfold⟩) hl ho hr).2 ⟨condition, h, rfl⟩

/-! ## Operands and paths in the source -/

section

variable {X P before behind : String} {xs : List Token} {path : Token} {r : Relation}
  (hX : Token.ofSource c.builtins X = .ok xs) (hxs : OfOperand xs)
  (hP : Token.ofSource c.builtins P = .ok [path]) (hpath : path.kind = .path)
  (hgap : ∀ gap ∈ [before, behind], ∀ ch ∈ gap.toList, isGap ch = true)

include hP hpath in
/-- A path is an operand. -/
lemma group_of_path : path.group = .operand := by
  have hlexeme := Scanner.exists_lexeme_of_mem_tokens hP (List.mem_singleton_self path)
  rw [Token.FromSource.group_eq (.inl hlexeme), hpath]
  rfl

include hX hxs hP hpath hgap in
/-- What a filter is with the path on the right. -/
lemma parse_join_right_iff (o : Operator) :
    c.parse (o.join X before behind P) = .ok ns ↔ ∃ x r locale, xs = [x] ∧ x.kind = .string ∧
      o = .compare r ∧ Condition.localeOf path = .ok locale ∧ ns = [.condition c.dialect
        (.urlPath (.operator (.compare r.swapped)) (.string x.lexeme) locale)] := by
  have hgroup := group_of_path hP hpath
  obtain ⟨start, k, hraw⟩ := Token.ofSource_join o hX hP hxs.group_ne (by simp [hgroup]) hgap
  have hpath' : (path.shift k).kind = .path := hpath
  have hlexeme : (path.shift k).lexeme = path.lexeme := rfl
  constructor
  · intro h
    obtain ⟨left, right, condition, hleft, hright, hreads, rfl⟩ :=
      exists_condition_of_parse hraw hxs (.single hgroup) rfl h
    obtain rfl := hright.eq_of_singleton
    obtain ⟨hstring, r, locale, rfl, hlocale, rfl⟩ :=
      (Condition.reads_path_right_iff rfl hpath').1 hreads
    exact ⟨left, r, locale, hleft.eq_singleton (by simp [hstring]), hstring, rfl,
      (Condition.localeOf_congr hlexeme).1 hlocale, rfl⟩
  · rintro ⟨x, r, locale, rfl, hstring, rfl, hlocale, rfl⟩
    exact parse_of_reads hraw hxs.group_of_singleton rfl hgroup
      ((Condition.reads_path_right_iff rfl hpath').2
        ⟨hstring, r, locale, rfl, (Condition.localeOf_congr hlexeme).2 hlocale, rfl⟩)

include hX hxs hP hpath hgap in
/-- What a comparison is with the path on the left. -/
lemma parse_join_left_iff :
    c.parse ((Operator.compare r).join P before behind X) = .ok ns ↔ ∃ x locale, xs = [x] ∧
      x.kind = .string ∧ Condition.localeOf path = .ok locale ∧ ns = [.condition c.dialect
        (.urlPath (.operator (.compare r)) (.string x.lexeme) locale)] := by
  have hgroup := group_of_path hP hpath
  obtain ⟨start, k, hraw⟩ := Token.ofSource_join (.compare r) hP hX (by simp [hgroup])
    (fun u hu => (hxs.group_ne u (List.mem_of_mem_head? hu)).1) hgap
  constructor
  · intro h
    obtain ⟨left, right, condition, hleft, hright, hreads, rfl⟩ :=
      exists_condition_of_parse hraw (.single hgroup) (hxs.shift k) rfl h
    obtain rfl := hleft.eq_of_singleton
    obtain ⟨hstring, locale, hlocale, rfl⟩ := (Condition.reads_path_left_iff rfl hpath).1 hreads
    obtain ⟨x, rfl, rfl⟩ := List.map_eq_singleton_iff.1 (hright.eq_singleton (by simp [hstring]))
    exact ⟨x, locale, rfl, hstring, hlocale, rfl⟩
  · rintro ⟨x, locale, rfl, hstring, hlocale, rfl⟩
    exact parse_of_reads hraw hgroup rfl hxs.group_of_singleton
      ((Condition.reads_path_left_iff rfl hpath).2 ⟨hstring, locale, hlocale, rfl⟩)

include hX hxs hP hpath hgap in
/-- A comparison has the same nodes with the path on either side. -/
lemma parse_join_swapped {before' behind' : String}
    (hgap' : ∀ gap ∈ [before', behind'], ∀ ch ∈ gap.toList, isGap ch = true) :
    c.parse ((Operator.compare r).join X before behind P) = .ok ns ↔
      c.parse ((Operator.compare r.swapped).join P before' behind' X) = .ok ns := by
  rw [parse_join_right_iff hX hxs hP hpath hgap, parse_join_left_iff hX hxs hP hpath hgap']
  constructor
  · rintro ⟨x, s, locale, rfl, hstring, hs, hlocale, rfl⟩
    obtain rfl := Operator.compare.inj hs
    exact ⟨x, locale, rfl, hstring, hlocale, rfl⟩
  · rintro ⟨x, locale, rfl, hstring, hlocale, rfl⟩
    exact ⟨x, r, locale, rfl, hstring, rfl, hlocale, rfl⟩

end

/-- What two filters with the same nodes are compiled to. -/
lemma compileInto_ok_congr {query query' : String} {sink : Sink} {result : String × Sink}
    (h : ∀ ns, c.parse query = .ok ns ↔ c.parse query' = .ok ns) :
    c.compileInto query sink = .ok result ↔ c.compileInto query' sink = .ok result := by
  simp only [compileInto, Except.bind_eq_ok_iff, h]

lemma compile_ok_congr {query query' : String} {fragment : Fragment}
    (h : ∀ ns, c.parse query = .ok ns ↔ c.parse query' = .ok ns) :
    c.compile query = .ok fragment ↔ c.compile query' = .ok fragment := by
  simp only [compile_eq_ok_iff, h]

/-- A comparison of an operand with the path is compiled to the same fragment as that of the path
with the operand, with the operator read from the other side, or both are refused; they are accepted
exactly if the operand is a string and the path has no more than a locale behind it.  With the path
on the right no other operator is accepted.  The gaps around the operators make no difference. -/
theorem compile_join_swapped (c : Compiler) {X P : String} {xs : List Token} {path : Token}
    (hX : Token.ofSource c.builtins X = .ok xs) (hxs : OfOperand xs)
    (hP : Token.ofSource c.builtins P = .ok [path]) (hpath : path.kind = .path)
    {before behind before' behind' : String}
    (hgap : ∀ gap ∈ [before, behind, before', behind'], ∀ ch ∈ gap.toList, isGap ch = true) :
    (∀ r : Relation,
      (∀ fragment, c.compile ((Operator.compare r).join X before behind P) = .ok fragment ↔
        c.compile ((Operator.compare r.swapped).join P before' behind' X) = .ok fragment) ∧
      (∀ sink result,
        c.compileInto ((Operator.compare r).join X before behind P) sink = .ok result ↔
        c.compileInto ((Operator.compare r.swapped).join P before' behind' X) sink = .ok result) ∧
      ((∃ fragment, c.compile ((Operator.compare r).join X before behind P) = .ok fragment) ↔
        (∃ x, xs = [x] ∧ x.kind = .string) ∧ ∃ locale, Condition.localeOf path = .ok locale)) ∧
    ∀ o : Operator, o.family ≠ .comparison →
      ∃ e, c.compile (o.join X before behind P) = .error e := by
  have hright : ∀ gap ∈ [before, behind], ∀ ch ∈ gap.toList, isGap ch = true :=
    fun gap h => hgap gap (List.mem_append_left _ h)
  have hleft : ∀ gap ∈ [before', behind'], ∀ ch ∈ gap.toList, isGap ch = true :=
    fun gap h => hgap gap (List.mem_append_right [before, behind] h)
  refine ⟨fun r => ?_, fun o ho => ?_⟩
  · have hparse : ∀ ns, c.parse ((Operator.compare r).join X before behind P) = .ok ns ↔
        c.parse ((Operator.compare r.swapped).join P before' behind' X) = .ok ns :=
      fun _ => parse_join_swapped hX hxs hP hpath hright hleft
    refine ⟨fun _ => compile_ok_congr hparse, fun _ _ => compileInto_ok_congr hparse, ?_⟩
    constructor
    · rintro ⟨fragment, h⟩
      obtain ⟨ns, hns, -⟩ := compile_eq_ok_iff.1 h
      obtain ⟨x, s, locale, rfl, hstring, -, hlocale, -⟩ :=
        (parse_join_right_iff hX hxs hP hpath hright _).1 hns
      exact ⟨⟨x, rfl, hstring⟩, locale, hlocale⟩
    · rintro ⟨⟨x, rfl, hstring⟩, locale, hlocale⟩
      have hns := (parse_join_right_iff hX hxs hP hpath hright (.compare r)).2
        ⟨x, r, locale, rfl, hstring, rfl, hlocale, rfl⟩
      exact ⟨_, compile_eq_ok_iff.2 ⟨_, hns, rfl⟩⟩
  · cases hcompile : c.compile (o.join X before behind P) with
    | error e => exact ⟨e, rfl⟩
    | ok fragment =>
      obtain ⟨ns, hns, -⟩ := compile_eq_ok_iff.1 hcompile
      obtain ⟨x, r, locale, -, -, rfl, -, -⟩ :=
        (parse_join_right_iff hX hxs hP hpath hright o).1 hns
      exact absurd rfl ho

/-- A string and a path with a locale, written with blanks and without them, and with an operator
that the path does not take on the right. -/
theorem compile_join_swapped_of_locale :
    let c : Compiler := ofDialect .postgres .empty
    ∃ fragment, fragment.sql = "EXISTS (SELECT 1 FROM cms.urlpaths up WHERE up.node = n.node " ++
        "AND up.inactive IS NULL AND up.path > :p0 AND up.locale = :p1)" ∧
      c.compile "'/m' < path.en" = .ok fragment ∧ c.compile "path.en>'/m'" = .ok fragment ∧
      ∃ e, c.compile "'/m' ~ path.en" = .error e := by
  intro c
  obtain ⟨fragment, hfragment⟩ : ∃ fragment, c.compile "'/m' < path.en" = .ok fragment :=
    Except.exists_of_isOk (by decide +kernel)
  have hsql : (c.compile "'/m' < path.en").map Fragment.sql = .ok ("EXISTS (SELECT 1 FROM " ++
      "cms.urlpaths up WHERE up.node = n.node AND up.inactive IS NULL AND up.path > :p0 AND " ++
      "up.locale = :p1)") := by decide +kernel
  rw [hfragment] at hsql
  have hX := Except.map_eq_ok_iff.1 (by decide +kernel :
    (Token.ofSource c.builtins "'/m'").map (·.map Token.group) = .ok [.operand])
  have hP := Except.map_eq_ok_iff.1 (by decide +kernel :
    (Token.ofSource c.builtins "path.en").map (·.map Token.kind) = .ok [.path])
  obtain ⟨xs, hX, hxs⟩ := hX
  obtain ⟨x, rfl, hx⟩ := List.map_eq_singleton_iff.1 hxs
  obtain ⟨ps, hP, hps⟩ := hP
  obtain ⟨path, rfl, hpath⟩ := List.map_eq_singleton_iff.1 hps
  have hblank : isGap ' ' = true := by decide
  have hgap : ∀ gap ∈ [" ", " ", "", ""], ∀ ch ∈ gap.toList, isGap ch = true := by simp [hblank]
  obtain ⟨hswapped, hrefused⟩ := compile_join_swapped c hX (.single hx) hP hpath hgap
  exact ⟨fragment, (Except.ok.inj hsql).trans (by decide), hfragment,
    ((hswapped .lt).1 fragment).1 hfragment, hrefused (.regex false false) (by decide)⟩

end Compiler
end ContentFilter
