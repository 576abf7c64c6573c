import ContentFilter.Proofs.Condition.Operands
import ContentFilter.Proofs.Token.Stretch
/-!
# The operands in a compiled filter

The conditions of a filter that is accepted are in the scope of `Condition.reads_application`: their
numbers are numbers of the grammar, and their lists have elements.  So with columns that are column
references, every operator that PostgreSQL is given is applied to the whole of its sides, but for
the matches of regular expressions with a field on the right
(`Compiler.applications_wholeIn_iff`).
-/

namespace ContentFilter

open ContentFilter.Filter Sql

namespace Lexeme

variable {b : Builtins} {word rest text : List Char} {k : Kind}

/-- The lexemes that are numbers are those of the grammar. -/
lemma Begins.number_text (h : Begins b word rest k text) (hk : k = .number) : Number text := by
  cases h with
  | number hnumber _ => exact hnumber
  | name _ _ => exact absurd hk (classify_ne b word (by decide))
  | delimiter hmem => simp [hk] at hmem
  | connective hmem _ => simp [hk] at hmem
  | operator _ => cases hk
  | string _ _ => cases hk

end Lexeme

namespace Token

variable {b : Builtins} {t u : Token}

lemma FromSource.number (h : FromSource b t) (hk : t.kind = .number) :
    Lexeme.Number t.lexeme.toList := by
  rcases h with ⟨c, r, l, position, hl, rfl⟩ | ⟨_, _, _, rfl, -⟩
  · obtain ⟨word, rest, -, -, hbegins⟩ := Lexeme.begins_of_read hl
    simpa [Scanner.tokenAt, plain] using hbegins.number_text hk
  · cases hk

end Token

lemma Operand.Reads.ne_nil {b : Builtins} {t : Token} {v : Operand} (h : v.Reads b t)
    (hitems : t.kind = .list → t.items ≠ []) : v ≠ .list [] := by
  rintro rfl
  cases h with
  | list hk hforall => exact hitems hk (List.forall₂_nil_right_iff.1 hforall)

/-- The conditions that are made of tokens have no empty lists. -/
lemma Filter.Clause.operand?_ne_nil {ctx : Context} {clause : Clause} {condition : Condition}
    (h : clause.condition ctx = .ok condition)
    (hitems : ∀ t ∈ clause.tokens, t.kind = .list → t.items ≠ []) :
    condition.operand? ≠ some (.list []) := by
  cases clause with
  | lone t =>
    obtain ⟨f, -, -, rfl⟩ := Condition.ofLone_eq_ok_iff.1 h
    simp [Condition.operand?]
  | triple left operator right =>
    have hleft := hitems left (by simp [tokens])
    have hright := hitems right (by simp [tokens])
    cases Condition.ofTriple_eq_ok_iff.1 h with
    | nullity _ _ _ _ _ => simp [Condition.operand?]
    | comparison _ hr _ _ _ _ _ => simpa [Condition.operand?] using hr.ne_nil hright
    | pathLeft _ _ hr _ _ _ => simpa [Condition.operand?] using hr.ne_nil hright
    | pathRight _ _ hr _ _ _ => simpa [Condition.operand?] using hr.ne_nil hleft

namespace Compiler

variable {c : Compiler} {query sql : String} {sink sink' : Sink}

lemma items_ne_nil_of_mem_tokens {ts : List Token} (h : c.tokens query = .ok ts) {t : Token}
    (ht : t ∈ ts) (hk : t.kind = .list) : t.items ≠ [] := by
  obtain ⟨raw, hraw, hfold⟩ := tokens_eq_ok_iff.1 h
  rcases (Token.folds_of_foldFrom hfold).items_ne_nil ht with hmem | hitems
  · exact absurd hk (Token.IsLexeme.kind_ne_list (Scanner.exists_lexeme_of_mem_tokens hraw hmem))
  · exact hitems

/-- With columns that are column references, PostgreSQL applies each operator in a compiled filter
to just the expressions that its sides are, unless it matches a regular expression that is read
from a field. -/
theorem applications_wholeIn_iff (hd : c.dialect = .postgres)
    (hcolumns : ∀ name x, c.builtins.column? name = some x → IsColumn x)
    (h : c.compileInto query sink = .ok (sql, sink')) :
    ∃ C : Tree Condition .disj, c.parse query = .ok (C.nodes c.dialect) ∧
      (C.template c.dialect).fill sink = (sql, sink') ∧
      ∀ condition ∈ C.atoms, ∀ a, condition.application? = some a →
        ∀ s, a.WholeIn (condition.template c.dialect) s ↔ ¬a.Detached := by
  obtain ⟨T, C, hT, hC, hparse, hfill⟩ := compileInto_eq_ok h
  refine ⟨C, hparse, hfill, fun condition hmem a ha s => ?_⟩
  have hcodes : ∀ x ∈ condition.codes, Tight x := by
    intro x hx
    rcases hT.isCode hC hmem hx with ⟨name, hcolumn⟩ | ⟨t, ht, hk, rfl⟩
    · exact (hcolumns name x hcolumn).tight
    · exact tight_number (ht.number hk)
  have hlist : condition.operand? ≠ some (.list []) := by
    obtain ⟨ts, hts, hderives⟩ := hT
    obtain ⟨clause, hclause, htokens⟩ := exists_clause_of_mem hderives hC hmem
    exact Clause.operand?_ne_nil hclause
      fun t ht => items_ne_nil_of_mem_tokens hts (htokens t ht)
  rw [hd]
  exact condition.wholeIn_iff ha hcodes hlist s

lemma forall_column_isColumn : ∀ name x,
    Builtins.column? (Table.empty.insert "published" "n.published") name = some x → IsColumn x := by
  have hchars : ("n.published".toList.all fun c => isWordChar c || c = '.' || c = '"') = true := by
    decide
  refine Builtins.forall_column_of_single ⟨fun c hc => ?_, by decide, by decide⟩
  simpa [or_assoc] using List.all_eq_true.1 hchars c hc

/-- A time, a negative number, a list that the items of a field are looked up in, and a match with
a field on its right. -/
theorem applications_wholeIn_iff_of_field_pattern :
    ∃ sql sink', ∃ C : Tree Condition .disj,
      (ofDialect .postgres (Table.empty.insert "published" "n.published")).compileInto
        "published < now & (-1 < price | tags.* !@ ['x', 'y']) & slug !~* title"
        (.ofStem .default) = .ok (sql, sink') ∧
      (ofDialect .postgres (Table.empty.insert "published" "n.published")).parse
        "published < now & (-1 < price | tags.* !@ ['x', 'y']) & slug !~* title" =
        .ok (C.nodes .postgres) ∧
      (C.template .postgres).fill (.ofStem .default) = (sql, sink') ∧
      ∀ condition ∈ C.atoms, ∀ a, condition.application? = some a →
        ∀ s, a.WholeIn (condition.template .postgres) s ↔ ¬a.Detached := by
  obtain ⟨⟨sql, sink'⟩, h⟩ : ∃ r,
      (ofDialect .postgres (Table.empty.insert "published" "n.published")).compileInto
        "published < now & (-1 < price | tags.* !@ ['x', 'y']) & slug !~* title"
        (.ofStem .default) = .ok r := Except.exists_of_isOk (by decide +kernel)
  obtain ⟨C, hparse, hfill, hwhole⟩ := applications_wholeIn_iff rfl forall_column_isColumn h
  exact ⟨sql, sink', C, h, hparse, hfill, hwhole⟩

/-- A filter that is accepted, with an operator that is not applied to the whole of its sides: the
arrows of the field on the right are applied to the outcome of the match. -/
theorem not_wholeIn_field_pattern :
    ∃ condition a,
      (ofDialect .postgres (Table.empty.insert "published" "n.published")).parse
        "published ~ title" = .ok [.condition .postgres condition] ∧
      ((condition.template .postgres).fill (.ofStem .default)).1 =
        "n.published ~ n.content->'title'->>'value'" ∧
      condition.application? = some a ∧
      ¬a.WholeIn (condition.template .postgres) (.ofStem .default) := by
  refine ⟨.comparison (.location (.column "n.published")) (.regex false false)
    (.location (.field ⟨"title", [], none⟩)), _, ?_, by decide +kernel, rfl, fun hwhole => ?_⟩
  · exact Except.eq_ok_of_toOption (by decide +kernel)
  · have hcodes : ∀ x ∈ (Condition.comparison (.location (.column "n.published"))
        (.regex false false) (.location (.field ⟨"title", [], none⟩))).codes, Tight x := by
      rintro x hx
      obtain rfl := List.mem_singleton.1 hx
      exact (forall_column_isColumn "published" _ (by decide)).tight
    exact (Condition.wholeIn_iff rfl hcodes (by decide) _).1 hwhole ⟨⟨false, false, rfl⟩, _, rfl⟩

end Compiler
end ContentFilter
