import ContentFilter.Proofs.Condition.Fields
import ContentFilter.Proofs.Condition.Source
import ContentFilter.Proofs.Filter.Rendering
/-!
# What a compiled filter is made of

A filter that is compiled has a tree, which its tokens are written by, and a condition for each
clause of the tree; its SQL is the template of the conditions, filled
(`Compiler.compileInto_eq_ok`).  The code in this template that is not fixed is made of columns and
numbers (`Compiler.HasTree.forall_codes`), and what is required of these makes the whole template
well-formed (`Filter.Tree.formed_template`).
-/

namespace ContentFilter

open ContentFilter.Filter ContentFilter.Filter.Tree

namespace Filter

/-- The tokens of a clause. -/
def Clause.tokens : Clause → List Token
  | lone t => [t]
  | triple left operator right => [left, operator, right]

/-- The tokens of the clauses of a derivation are among its tokens. -/
lemma Derives.mem_of_clause {s : Symbol} {ts : List Token} {ps : List Part}
    (h : Derives s ts ps) {c : Clause} (hc : Part.clause c ∈ ps) : ∀ t ∈ c.tokens, t ∈ ts := by
  induction h with
  | single _ ih => exact ih hc
  | join _ _ _ ih₁ ih₂ =>
    intro t ht
    simp only [List.mem_append, List.mem_cons, reduceCtorEq, false_or] at hc
    rcases hc with hc | hc
    · exact List.mem_append_left _ (ih₁ hc t ht)
    · exact List.mem_append_right _ (List.mem_cons_of_mem _ (ih₂ hc t ht))
  | parens _ _ _ ih =>
    intro t ht
    simp only [List.mem_cons, reduceCtorEq, List.mem_append, List.not_mem_nil, or_false,
      false_or] at hc
    exact List.mem_cons_of_mem _ (List.mem_append_left _ (ih hc t ht))
  | lone _ =>
    obtain rfl := by simpa using hc
    exact fun t ht => ht
  | triple _ _ _ =>
    obtain rfl := by simpa using hc
    exact fun t ht => ht

lemma Tree.clause_mem_parts {l : Level} (t : Tree Clause l) {c : Clause} (h : c ∈ t.atoms) :
    Part.clause c ∈ t.parts := by
  induction t with
  | atom a => simpa [Tree.atoms, Tree.parts] using h
  | group d ih => exact List.mem_cons_of_mem _ (List.mem_append_left _ (ih h))
  | ofTerm t ih => exact ih h
  | and t u iht ihu =>
    rcases List.mem_append.1 h with h | h
    · exact List.mem_append_left _ (iht h)
    · exact List.mem_append_right _ (List.mem_cons_of_mem _ (ihu h))
  | ofConj u ih => exact ih h
  | or u d ihu ihd =>
    rcases List.mem_append.1 h with h | h
    · exact List.mem_append_left _ (ihu h)
    · exact List.mem_append_right _ (List.mem_cons_of_mem _ (ihd h))

lemma Clause.isCode_of_condition {ctx : Context} {clause : Clause} {c : Condition}
    (h : clause.condition ctx = .ok c) {x : String} (hx : x ∈ c.codes) :
    IsCode ctx.builtins clause.tokens x := by
  cases clause with
  | lone t => simp [Condition.codes_of_ofLone h] at hx
  | triple left operator right => exact (Condition.ofTriple_eq_ok_iff.1 h).isCode hx

/-- Every field of a condition is the path of a token of its clause. -/
lemma Clause.exists_field {ctx : Context} {clause : Clause} {c : Condition}
    (h : clause.condition ctx = .ok c) {f : FieldPath} (hf : f ∈ c.fields) :
    ∃ t ∈ clause.tokens, t.IsField f := by
  cases clause with
  | lone t => exact ⟨t, List.mem_singleton_self t, Condition.isField_of_ofLone h hf⟩
  | triple left operator right => exact (Condition.ofTriple_eq_ok_iff.1 h).exists_field hf

end Filter

/-- Well-formed templates inside of parentheses can be joined by a connective there. -/
lemma Template.Formed.separated {Q : String → Prop} {t u : Template} {connective : String}
    (hc : Sql.fixed 1 connective 1 = true) (ht : Formed Q 1 t 1) (hu : Formed Q 1 u 1) :
    Formed Q 1 (t ++ separator connective ++ u) 1 := by
  have hspace : Sql.isDelimiter ' ' = true := by decide
  have htail : Formed Q 1 (separator connective ++ u) 1 :=
    .ended (e := 1) (by decide) (.code hc (.inr hspace) (.ended (e := 1) (by decide) hu))
  rw [List.append_assoc]
  exact ht.append htail hspace

/-- The template of a tree is well-formed inside of parentheses, where connectives may stand. -/
lemma Filter.Tree.formed_template {Q : String → Prop} {l : Level} (d : Dialect)
    (t : Tree Condition l) (h : ∀ c ∈ t.atoms, ∀ x ∈ c.codes, Q x) :
    Template.Formed Q 1 (t.template d) 1 := by
  induction t with
  | atom c => exact (Template.formed_condition d c (h c (by simp [atoms]))).shift 1
  | group e ih =>
    have hclose : Template.Formed Q 2 [.code ")"] 1 := .ended (e := 1) (by decide) .nil
    exact .ended (e := 2) (by decide) (((ih h).shift 1).append hclose
      (by decide : Sql.isDelimiter ')' = true))
  | ofTerm t ih => exact ih h
  | and t c iht ihc =>
    exact (iht fun a ha => h a (List.mem_append_left _ ha)).separated (by decide)
      (ihc fun a ha => h a (List.mem_append_right _ ha))
  | ofConj c ih => exact ih h
  | or c e ihc ihe =>
    exact (ihc fun a ha => h a (List.mem_append_left _ ha)).separated (by decide)
      (ihe fun a ha => h a (List.mem_append_right _ ha))

/-- The conditions among the nodes of a tree are those of the tree. -/
lemma Filter.Tree.mem_nodes {l : Level} {d e : Dialect} {C : Tree Condition l}
    {condition : Condition} : .condition e condition ∈ C.nodes d ↔ e = d ∧ condition ∈ C.atoms := by
  induction C with
  | atom c => simp [nodes, atoms]
  | group C ih => simpa [nodes, atoms] using ih
  | ofTerm C ih => exact ih
  | and C D ihC ihD => simp [nodes, atoms, ihC, ihD, and_or_left]
  | ofConj C ih => exact ih
  | or C D ihC ihD => simp [nodes, atoms, ihC, ihD, and_or_left]

namespace Compiler

variable {c : Compiler} {query sql : String} {sink sink' : Sink}

/-- The tokens of a filter are written by a tree. -/
def HasTree (c : Compiler) (query : String) (T : Tree Clause .disj) : Prop :=
  ∃ ts, c.tokens query = .ok ts ∧ Derives .expr ts T.parts

/-- A filter has one tree at most. -/
lemma HasTree.unique {T U : Tree Clause .disj} (hT : c.HasTree query T) (hU : c.HasTree query U) :
    T = U := by
  obtain ⟨ts, hts, hT⟩ := hT
  obtain ⟨us, hus, hU⟩ := hU
  obtain rfl := Except.ok.inj (hts.symm.trans hus)
  exact Tree.parts_injective (hT.parts_unique hU)

/-- The conditions of a filter are made of its clauses, and these of its tokens. -/
lemma exists_clause_of_mem {ts : List Token} {T : Tree Clause .disj} {C : Tree Condition .disj}
    (hT : Derives .expr ts T.parts) (hC : T.map (Clause.condition c.context) = C.map .ok)
    {condition : Condition} (hmem : condition ∈ C.atoms) :
    ∃ clause : Clause, clause.condition c.context = .ok condition ∧
      ∀ t ∈ clause.tokens, t ∈ ts := by
  have hok : Except.ok condition ∈ (T.map (Clause.condition c.context)).atoms := by
    rw [hC, Tree.atoms_map]
    exact List.mem_map_of_mem hmem
  rw [Tree.atoms_map] at hok
  obtain ⟨clause, hclause, heq⟩ := List.mem_map.1 hok
  exact ⟨clause, heq, hT.mem_of_clause (T.clause_mem_parts hclause)⟩

/-- The free code of a filter is made of columns, and of numbers among its tokens. -/
lemma HasTree.isCode {T : Tree Clause .disj} {C : Tree Condition .disj}
    (hT : c.HasTree query T) (hC : T.map (Clause.condition c.context) = C.map .ok)
    {condition : Condition} (hmem : condition ∈ C.atoms) {x : String} (hx : x ∈ condition.codes) :
    (∃ name, c.builtins.column? name = some x) ∨
      ∃ t : Token, t.FromSource c.builtins ∧ t.kind = .number ∧ t.lexeme = x := by
  obtain ⟨ts, hts, hT⟩ := hT
  obtain ⟨clause, hclause, htokens⟩ := exists_clause_of_mem hT hC hmem
  rcases Clause.isCode_of_condition hclause hx with hcolumn | ⟨t, ht, hk, rfl⟩
  · exact .inl hcolumn
  · exact .inr ⟨t, fromSource_of_mem_tokens hts (htokens t ht), hk, rfl⟩

/-- What holds of the columns and of all numbers holds of the free code of a filter. -/
lemma HasTree.forall_codes {Q : String → Prop} {T : Tree Clause .disj} {C : Tree Condition .disj}
    (hT : c.HasTree query T) (hC : T.map (Clause.condition c.context) = C.map .ok)
    (hcolumns : ∀ name x, c.builtins.column? name = some x → Q x)
    (hnumbers : ∀ x : String, (∀ a ∈ x.toList, Lexeme.isNumberChar a = true) → Q x)
    {condition : Condition} (hmem : condition ∈ C.atoms) : ∀ x ∈ condition.codes, Q x := by
  intro x hx
  rcases hT.isCode hC hmem hx with ⟨name, hcolumn⟩ | ⟨t, ht, hk, rfl⟩
  · exact hcolumns name x hcolumn
  · exact hnumbers _ (ht.isNumberChar hk)

/-- A filter is accepted by finding its tree and making a condition of each clause. -/
theorem parse_eq_ok {ns : List Node} (h : c.parse query = .ok ns) :
    ∃ (T : Tree Clause .disj) (C : Tree Condition .disj), c.HasTree query T ∧
      T.map (Clause.condition c.context) = C.map .ok ∧ ns = C.nodes c.dialect := by
  obtain ⟨raw, hraw, hrest⟩ := Except.bind_eq_ok_iff.1 h
  obtain ⟨ts, hfold, -⟩ := Except.bind_eq_ok_iff.1 hrest
  have hts : c.tokens query = .ok ts := Except.bind_eq_ok_iff.2 ⟨raw, hraw, hfold⟩
  obtain ⟨ps, hps, hyields⟩ := (parse_eq_ok_iff hts).1 h
  obtain ⟨T, rfl⟩ :=
    (exists_tree_of_derives hps fun t ht => (fromSource_of_mem_tokens hts ht).group_eq).1
  obtain ⟨C, hC, rfl⟩ := T.exists_conditions hyields
  exact ⟨T, C, ⟨ts, hts, hps⟩, hC, rfl⟩

/-- A condition among the nodes of a filter is made of tokens of the filter. -/
lemma exists_clause_of_parse {ns : List Node} (h : c.parse query = .ok ns) {d : Dialect}
    {condition : Condition} (hmem : .condition d condition ∈ ns) :
    ∃ (ts : List Token) (clause : Clause), c.tokens query = .ok ts ∧
      clause.condition c.context = .ok condition ∧ ∀ t ∈ clause.tokens, t ∈ ts := by
  obtain ⟨T, C, ⟨ts, hts, hT⟩, hC, rfl⟩ := parse_eq_ok h
  obtain ⟨clause, hclause, htokens⟩ := exists_clause_of_mem hT hC (C.mem_nodes.1 hmem).2
  exact ⟨ts, clause, hts, hclause, htokens⟩

/-- A filter is compiled by finding its tree, making a condition of each clause, and filling the
template of the whole. -/
theorem compileInto_eq_ok (h : c.compileInto query sink = .ok (sql, sink')) :
    ∃ (T : Tree Clause .disj) (C : Tree Condition .disj), c.HasTree query T ∧
      T.map (Clause.condition c.context) = C.map .ok ∧
      c.parse query = .ok (C.nodes c.dialect) ∧
      (C.template c.dialect).fill sink = (sql, sink') := by
  obtain ⟨ns, hparse, h⟩ := Except.bind_eq_ok_iff.1 h
  obtain ⟨T, C, hT, hC, rfl⟩ := parse_eq_ok hparse
  refine ⟨T, C, hT, hC, hparse, ?_⟩
  rw [← Tree.templateOf_nodes]
  exact Except.ok.inj h

/-- A filter whose nodes are those of a tree is compiled to the template of the tree, filled. -/
lemma compileInto_of_nodes {l : Level} {C : Tree Condition l}
    (h : c.parse query = .ok (C.nodes c.dialect)) (sink : Sink) :
    c.compileInto query sink = .ok ((C.template c.dialect).fill sink) := by
  rw [compileInto, h, ← C.templateOf_nodes]
  rfl

/-- A filter that is compiled by itself is compiled into a sink of its own. -/
lemma compile_eq_ok {fragment : Fragment} (h : c.compile query = .ok fragment) :
    ∃ sink', c.compileInto query (.ofStem c.stem) = .ok (fragment.sql, sink') ∧
      fragment.params = sink'.values := by
  obtain ⟨⟨sql, sink'⟩, hinto, h⟩ := Except.bind_eq_ok_iff.1 h
  obtain rfl := Except.ok.inj h
  exact ⟨sink', hinto, rfl⟩

end Compiler
end ContentFilter
