import ContentFilter.Proofs.Condition.PathTexts
import ContentFilter.Proofs.Filter.Operands
/-!
# The JSON path texts of a compiled filter

The literals that a compiled filter passes to the JSON path functions of PostgreSQL are those of its
conditions (`Filter.Tree.carries_template`), and they can be read off its SQL.  They are sentences
of the grammar of JSON paths, but with the numbers of the filter as they are written.  So they are
sentences to PostgreSQL exactly if the filter compares no field with a number that has a superfluous
zero in front (`Compiler.pathTexts_sentences_iff`).
-/

namespace ContentFilter

open ContentFilter.Filter
open JsonPath (Numeral Padded Sentence)
open Lexeme (Number)

variable {l : Level} {ctx : Context} {clause : Clause} {condition : Condition}

/-! ## The texts of a tree -/

lemma Template.Carries.separated {t u : Template} {texts texts' : List String}
    {connective : String} (ht : t.Carries texts) (hu : u.Carries texts') :
    (t ++ Tree.separator connective ++ u).Carries (texts ++ texts') := by
  rw [List.append_assoc]
  exact ht.append (.code (.code (.code hu)))

/-- The JSON path texts of a tree are those of its conditions. -/
theorem Filter.Tree.carries_template (C : Tree Condition l) :
    (C.template .postgres).Carries (C.atoms.flatMap Condition.pathTexts) := by
  induction C with
  | atom c =>
    rw [atoms, List.flatMap_singleton]
    exact c.carries_template
  | group e ih => exact .code (ih.closed _)
  | ofTerm t ih => exact ih
  | and t c iht ihc =>
    rw [atoms, List.flatMap_append]
    exact iht.separated ihc
  | ofConj c ih => exact ih
  | or c e ihc ihe =>
    rw [atoms, List.flatMap_append]
    exact ihc.separated ihe

/-! ## The fields and numbers of a clause -/

lemma Filter.Clause.wellFormed_of_mem_fields (h : clause.condition ctx = .ok condition) :
    ∀ f ∈ condition.fields, f.WellFormed := by
  intro f hf
  obtain ⟨t, -, -, htext⟩ := Clause.exists_field h hf
  exact (FieldPath.ofText?_eq_some htext).1

/-- The number that a field is compared with is a token of the clause. -/
lemma Filter.Clause.exists_number (h : clause.condition ctx = .ok condition) {n : String}
    (hn : condition.comparedNumber? = some n) :
    ∃ t ∈ clause.tokens, t.kind = .number ∧ t.lexeme = n := by
  cases clause with
  | lone t =>
    obtain ⟨f, -, -, rfl⟩ := Condition.ofLone_eq_ok_iff.1 h
    cases hn
  | triple left operator right =>
    cases Condition.ofTriple_eq_ok_iff.1 h with
    | comparison _ hr _ _ _ _ _ =>
      unfold Condition.comparedNumber? at hn
      split at hn
      · next heq =>
        obtain ⟨-, -, rfl⟩ := Condition.comparison.inj heq
        obtain rfl := Option.some.inj hn
        cases hr with
        | number hk => exact ⟨right, by simp [tokens], hk, rfl⟩
      · cases hn
    | _ => cases hn

namespace Compiler

variable {b : Builtins} {stem : Stem} {query : String} {ns : List Node}

/-- The conditions of a filter are about paths. -/
lemma wellFormed_of_parse {c : Compiler} (h : c.parse query = .ok ns) {d : Dialect}
    (hmem : .condition d condition ∈ ns) : ∀ f ∈ condition.fields, f.WellFormed := by
  obtain ⟨-, clause, -, hclause, -⟩ := exists_clause_of_parse h hmem
  exact Clause.wellFormed_of_mem_fields hclause

/-- The conditions of a filter compare fields with numbers of the grammar. -/
lemma number_of_parse {c : Compiler} (h : c.parse query = .ok ns) {d : Dialect}
    (hmem : .condition d condition ∈ ns) {n : String} (hn : condition.comparedNumber? = some n) :
    Number n.toList := by
  obtain ⟨ts, clause, hts, hclause, htokens⟩ := exists_clause_of_parse h hmem
  obtain ⟨t, ht, hk, rfl⟩ := Clause.exists_number hclause hn
  exact (fromSource_of_mem_tokens hts (htokens t ht)).number hk

/-- The JSON path texts of a filter are those of its conditions. -/
lemma mem_pathTexts_iff (h : (⟨.postgres, b, stem⟩ : Compiler).parse query = .ok ns)
    {text : String} :
    text ∈ (Node.templateOf ns).pathTexts ↔
      ∃ condition, .condition .postgres condition ∈ ns ∧ text ∈ condition.pathTexts := by
  obtain ⟨T, C, -, -, rfl⟩ := parse_eq_ok h
  simp [C.templateOf_nodes, C.carries_template.pathTexts_eq, C.mem_nodes]

/-- The JSON path texts of a filter are sentences with numbers of a form, if the numbers that fields
are compared with are of this form. -/
lemma forall_pathTexts_sentence (h : (⟨.postgres, b, stem⟩ : Compiler).parse query = .ok ns)
    {number : List Char → Prop}
    (hnumber : ∀ condition, .condition .postgres condition ∈ ns →
      ∀ n, condition.comparedNumber? = some n → number n.toList) :
    ∀ text ∈ (Node.templateOf ns).pathTexts, Sentence number text.toList := by
  intro text htext
  obtain ⟨condition, hmem, htext⟩ := (mem_pathTexts_iff h).1 htext
  exact Condition.sentence_of_mem_pathTexts (wellFormed_of_parse h hmem) (hnumber condition hmem)
    text htext

/-- With columns that open no literal, the JSON path texts of a filter are what its SQL passes to
the JSON path functions. -/
lemma exists_pathTexts_of_parse (h : (⟨.postgres, b, stem⟩ : Compiler).parse query = .ok ns)
    (hcolumns : ∀ name x, b.column? name = some x → '\'' ∉ x.toList) (sink : Sink) :
    ∃ sql sink' gs, (⟨.postgres, b, stem⟩ : Compiler).compileInto query sink = .ok (sql, sink') ∧
      Sql.glyphs sql = some gs ∧
      Sql.pathTexts gs = (Node.templateOf ns).pathTexts.map String.toList := by
  obtain ⟨T, C, hT, hC, rfl⟩ := parse_eq_ok h
  have hnumbers : ∀ x : String, (∀ a ∈ x.toList, Lexeme.isNumberChar a = true) →
      '\'' ∉ x.toList := fun x hx hquote => absurd (hx _ hquote) (by decide)
  have hformed := C.formed_template .postgres fun _ => hT.forall_codes hC hcolumns hnumbers
  have hspaced := hformed.spaced fun x hx => hx
  refine ⟨_, _, _, compileInto_of_nodes h sink, Template.glyphs_fill hspaced sink, ?_⟩
  rw [C.templateOf_nodes, C.carries_template.pathTexts_eq]
  exact C.carries_template.pathTextsFrom_glyphs [] sink.counter

/-- The JSON path texts of an accepted filter are sentences of the grammar of JSON paths, with
numbers as they are written in filters.  They are sentences to PostgreSQL exactly if no number that
a field is compared with has a superfluous zero in front.  With columns that open no literal, they
are what the SQL of the filter passes to the JSON path functions. -/
theorem pathTexts_sentences_iff (b : Builtins) (stem : Stem) (query : String) (ns : List Node)
    (h : (⟨.postgres, b, stem⟩ : Compiler).parse query = .ok ns) :
    (∀ text ∈ (Node.templateOf ns).pathTexts, Sentence Number text.toList) ∧
    ((∀ text ∈ (Node.templateOf ns).pathTexts, Sentence Numeral text.toList) ↔
      ∀ condition, .condition .postgres condition ∈ ns → ∀ n, condition.comparedNumber? = some n →
        ¬Padded n.toList) ∧
    ((∀ name x, b.column? name = some x → '\'' ∉ x.toList) → ∀ sink, ∃ sql sink' gs,
      (⟨.postgres, b, stem⟩ : Compiler).compileInto query sink = .ok (sql, sink') ∧
        Sql.glyphs sql = some gs ∧
        Sql.pathTexts gs = (Node.templateOf ns).pathTexts.map String.toList) := by
  refine ⟨forall_pathTexts_sentence h fun condition hmem n hn => number_of_parse h hmem hn,
    ⟨fun htexts condition hmem n hn => ?_, fun hpadded => ?_⟩, exists_pathTexts_of_parse h⟩
  · have hnumber := number_of_parse h hmem hn
    rw [← JsonPath.numeral_iff hnumber]
    exact Condition.numeral_of_comparedNumber hn hnumber fun text htext =>
      htexts text ((mem_pathTexts_iff h).2 ⟨condition, hmem, htext⟩)
  · refine forall_pathTexts_sentence h fun condition hmem n hn => ?_
    exact (JsonPath.numeral_iff (number_of_parse h hmem hn)).2 (hpadded condition hmem n hn)

/-- A key that needs quotes, a pattern with a quote in it, and a negative fraction. -/
theorem pathTexts_sentences_iff_of_quoted_key :
    ∃ ns, (ofDialect .postgres .empty).parse
        "a.b-c >= -0.5 & (tags.? ~* 'it\"s' | d = true | e.f)" = .ok ns ∧
      (Node.templateOf ns).pathTexts = ["$.a.value.\"b-c\" >= -0.5",
        "$.tags.value[*] ? (@ like_regex \"it\\\"s\" flag \"i\")", "$.d.value == true",
        "$.e.value.f"] ∧
      (∀ text ∈ (Node.templateOf ns).pathTexts, Sentence Number text.toList) ∧
      ((∀ text ∈ (Node.templateOf ns).pathTexts, Sentence Numeral text.toList) ↔
        ∀ condition, .condition .postgres condition ∈ ns →
          ∀ n, condition.comparedNumber? = some n → ¬Padded n.toList) ∧
      ∀ sink, ∃ sql sink' gs,
        (ofDialect .postgres .empty).compileInto
          "a.b-c >= -0.5 & (tags.? ~* 'it\"s' | d = true | e.f)" sink = .ok (sql, sink') ∧
        Sql.glyphs sql = some gs ∧
        Sql.pathTexts gs = (Node.templateOf ns).pathTexts.map String.toList := by
  obtain ⟨ns, hns⟩ : ∃ ns, (ofDialect .postgres .empty).parse
      "a.b-c >= -0.5 & (tags.? ~* 'it\"s' | d = true | e.f)" = .ok ns :=
    Except.exists_of_isOk (by decide +kernel)
  have htexts : ((ofDialect .postgres .empty).parse
      "a.b-c >= -0.5 & (tags.? ~* 'it\"s' | d = true | e.f)").map
        (fun ns => (Node.templateOf ns).pathTexts) =
      .ok ["$.a.value.\"b-c\" >= -0.5",
        "$.tags.value[*] ? (@ like_regex \"it\\\"s\" flag \"i\")", "$.d.value == true",
        "$.e.value.f"] := by decide +kernel
  rw [hns] at htexts
  obtain ⟨hnumber, hnumeral, hsql⟩ := pathTexts_sentences_iff .empty .default _ ns hns
  exact ⟨ns, hns, Except.ok.inj htexts, hnumber, hnumeral, hsql nofun⟩

/-- A filter that is accepted, although PostgreSQL does not read its JSON path. -/
theorem not_sentence_of_padded_number :
    ∃ fragment, (ofDialect .postgres .empty).compile "a = 007" = .ok fragment ∧
      (Sql.glyphs fragment.sql).map Sql.pathTexts = some ["$.a.value == 007".toList] ∧
      ¬Sentence Numeral "$.a.value == 007".toList := by
  obtain ⟨fragment, hfragment⟩ : ∃ fragment,
      (ofDialect .postgres .empty).compile "a = 007" = .ok fragment :=
    Except.exists_of_isOk (by decide +kernel)
  have htexts : ((ofDialect .postgres .empty).compile "a = 007").map
      (fun fragment => (Sql.glyphs fragment.sql).map Sql.pathTexts) =
      .ok (some ["$.a.value == 007".toList]) := by decide +kernel
  rw [hfragment] at htexts
  refine ⟨fragment, hfragment, Except.ok.inj htexts, fun hsentence => ?_⟩
  have hnumber : Number "007".toList := .positive (.whole (by simp [Lexeme.Digits]))
  have hnumeral : Numeral "007".toList :=
    JsonPath.numeral_of_sentence (p := "$.a.value ==".toList) hnumber hsentence
  exact (JsonPath.numeral_iff hnumber).1 hnumeral (.inl ⟨'0', ['7'], rfl, by decide⟩)

end Compiler
end ContentFilter
