import ContentFilter.Proofs.Filter.Compiled
/-!
# The boolean structure of a compiled filter

A compiled filter has the structure of its source.  The tokens of the source are written by one
tree, the SQL is the printing of this tree with the text of a condition for each clause, and the
SQL is read as this tree again, since no condition lets a parenthesis or a connective escape
(`Compiler.exists_structured_of_compile`).  The columns of the builtins are trusted to be
self-contained.
-/

namespace ContentFilter

open ContentFilter.Filter

namespace Compiler

variable {c : Compiler} {query sql : String} {sink sink' : Sink}

/-- The SQL of a filter has the structure of its source: the tree `T` of the filter, of which `R`
is the rendering. -/
structure Structured (c : Compiler) (query : String) (sink : Sink) (sql : String) (sink' : Sink)
    (T : Tree Clause .disj) (R : Tree String .disj) : Prop where
  /-- The tokens of the filter are written by `T`. -/
  tree : c.HasTree query T
  /-- They are written by no other tree. -/
  unique : ∀ U, c.HasTree query U → U = T
  /-- The clauses of `T` are conditions, and `R` is made of their texts, filled from left to right
  from one sink. -/
  rendered : ∃ C : Tree Condition .disj, T.map (Clause.condition c.context) = C.map Except.ok ∧
    C.render c.dialect sink = (R, sink')
  /-- The SQL is `R`, with connectives and parentheses. -/
  printed : sql = R.print
  /-- The text of each condition is balanced, with all connectives in parentheses. -/
  contained : ∀ x ∈ R.atoms, ∃ ls, Sql.signsOf x = some ls ∧ Sql.Contained ls
  /-- The SQL is balanced. -/
  balanced : ∃ ls, Sql.signsOf sql = some ls ∧ Sql.Balanced ls
  /-- The SQL is read as `R`. -/
  read : Sql.read sql = some (R.map fun x => Sql.trim ((Sql.signsOf x).getD []))
  /-- But for its atoms, `R` is `T`. -/
  shape : R.shape = T.shape

/-- With columns that are self-contained, the SQL of a filter has the structure of its source. -/
theorem exists_structured_of_compileInto
    (hcolumns : ∀ name x, c.builtins.column? name = some x → Sql.SelfContained x)
    (h : c.compileInto query sink = .ok (sql, sink')) :
    ∃ T R, Structured c query sink sql sink' T R := by
  obtain ⟨T, C, hT, hC, -, hfill⟩ := compileInto_eq_ok h
  rw [Tree.fill_template, Prod.mk.injEq] at hfill
  obtain ⟨hsql, hsink⟩ := hfill
  have hatoms : ∀ x ∈ (C.render c.dialect sink).1.atoms,
      ∃ ls, Sql.signsOf x = some ls ∧ Sql.Contained ls ∧ Sql.bare 0 ls = true := by
    intro x hx
    obtain ⟨condition, hmem, s, rfl⟩ := Tree.exists_of_mem_atoms_thread hx
    have hcodes := hT.forall_codes hC hcolumns (fun _ => Sql.selfContained_number) hmem
    exact Template.signsOf_fill_condition c.dialect condition hcodes s
  -- each text closes its literals, so that it has signs by itself
  have hread := (C.render c.dialect sink).1.read_print
    (f := fun x => (Sql.signsOf x).getD []) fun x hx => by
      obtain ⟨ls, hls, hcontained, hbare⟩ := hatoms x hx
      simpa [hls] using ⟨hcontained, hbare⟩
  have hshape : (C.render c.dialect sink).1.shape = T.shape := by
    rw [Tree.render, Tree.shape_thread, ← Tree.shape_map (Except.ok (ε := Refusal)) C, ← hC,
      Tree.shape_map]
  refine ⟨T, (C.render c.dialect sink).1, hT, fun U hU => hU.unique hT, ⟨C, hC, ?_⟩, hsql.symm,
    fun x hx => ?_, hsql ▸ hread.1, hsql ▸ hread.2, hshape⟩
  · rw [← hsink]
  · obtain ⟨ls, hls, hcontained, -⟩ := hatoms x hx
    exact ⟨ls, hls, hcontained⟩

/-- With columns that are self-contained, a compiled filter has the structure of its source. -/
theorem exists_structured_of_compile
    (hcolumns : ∀ name x, c.builtins.column? name = some x → Sql.SelfContained x)
    {fragment : Fragment} (h : c.compile query = .ok fragment) :
    ∃ sink' T R, fragment.params = sink'.values ∧
      Structured c query (.ofStem c.stem) fragment.sql sink' T R := by
  obtain ⟨sink', hinto, hparams⟩ := compile_eq_ok h
  obtain ⟨T, R, hstructured⟩ := exists_structured_of_compileInto hcolumns hinto
  exact ⟨sink', T, R, hparams, hstructured⟩

/-- A filter with a parenthesis and a connective inside of a string, and a column inside of
parentheses. -/
theorem exists_structured_of_misleading_string :
    ∃ fragment sink' T R,
      (ofDialect .postgres (Table.empty.insert "published" "n.published")).compile
        "(a = ') OR (' | published > now) & path.de ~ '^/x'" = .ok fragment ∧
      fragment.params = sink'.values ∧
      Structured (ofDialect .postgres (Table.empty.insert "published" "n.published"))
        "(a = ') OR (' | published > now) & path.de ~ '^/x'" (.ofStem .default) fragment.sql sink'
        T R := by
  have hcolumns : ∀ name x, Builtins.column? (Table.empty.insert "published" "n.published") name =
      some x → Sql.SelfContained x :=
    Builtins.forall_column_of_single ⟨by decide, Sql.contained_iff.2 (by decide)⟩
  obtain ⟨fragment, hfragment⟩ : ∃ fragment,
      (ofDialect .postgres (Table.empty.insert "published" "n.published")).compile
        "(a = ') OR (' | published > now) & path.de ~ '^/x'" = .ok fragment :=
    Except.exists_of_isOk (by decide +kernel)
  obtain ⟨sink', T, R, hparams, hstructured⟩ := exists_structured_of_compile hcolumns hfragment
  exact ⟨fragment, sink', T, R, hfragment, hparams, hstructured⟩

end Compiler
end ContentFilter
