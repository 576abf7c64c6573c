import ContentFilter.Proofs.Condition.Values
import ContentFilter.Proofs.Sql.Binding
/-!
# Placeholders and parameters

The placeholders in the SQL of a filter and the values in its sink correspond.  The SQL has the
next names of the sink as placeholders, in the order of the text and each once, and the sink binds
these names, in the same order, to the literals of the filter that are bound
(`Compiler.placeholders_correspond`).  What is written into literals does not count, so a string
that looks like a placeholder is none; the columns of the builtins are trusted to have no colon and
no quote.
-/

namespace ContentFilter

open ContentFilter.Filter

namespace Template

variable {Q : String → Prop} {d e : Nat} {t : Template}

/-- The code that a parted template begins with does not go on with digits. -/
lemma Parted.not_isDigit (h : Parted t) (c : Counter) :
    ∀ x ∈ (Sql.leadingCode (t.glyphs c)).head?, x.isDigit = false := by
  intro x hx
  -- a digit is part of a word, and does not part anything
  by_contra hdigit
  have hdelimiter := h.isDelimiter_head c x hx
  simp [Sql.isDelimiter, Sql.isWordChar, Char.isAlphanum, hdigit] at hdelimiter

/-- The placeholders of a well-formed template are those of its holes. -/
lemma Formed.placeholders_glyphs (h : Formed Q d t e) (hQ : ∀ x, Q x → ':' ∉ x.toList)
    (c : Counter) : Sql.placeholders c.stem (t.glyphs c) = c.names t.values.length := by
  induction h generalizing c with
  | nil => rfl
  | code hx _ _ ih =>
    simp only [Sql.fixed, Bool.and_eq_true] at hx
    rw [glyphs, Sql.placeholders_quiet hx.1.2]
    exact ih c
  | free hx _ _ ih =>
    rw [glyphs, Sql.codeGlyphs, Sql.placeholders_codes (hQ _ hx)]
    exact ih c
  | literal _ _ ih => exact ih c
  | hole hr _ ih =>
    have hcolon : ':' ∉ c.name.toList := by
      intro hmem
      exact absurd (c.isWordChar_of_mem_name _ hmem) (by decide)
    rw [glyphs, List.cons_append, Sql.placeholders, Sql.codeGlyphs, Sql.leadingCode_append,
      Sql.name_append c (hr.not_isDigit c.succ), Sql.placeholders_codes hcolon, values,
      List.length_cons, Counter.names_succ, ← ih c.succ]
    rfl

end Template

/-- The holes of a tree are those of its conditions. -/
lemma Filter.Tree.values_template {l : Level} (d : Dialect) (t : Tree Condition l) :
    (t.template d).values = t.atoms.flatMap fun c => (c.template d).values := by
  induction t with
  | atom c => simp [template, atoms]
  | group t ih => simp [template, atoms, ih]
  | ofTerm t ih => exact ih
  | and t u iht ihu => simp [template, separator, atoms, iht, ihu]
  | ofConj t ih => exact ih
  | or t u iht ihu => simp [template, separator, atoms, iht, ihu]

/-- If the clauses of a tree are conditions, these wait for what the clauses bind. -/
lemma Filter.Tree.flatMap_bound {ctx : Context} {cs : List Clause} {conditions : List Condition}
    (h : cs.map (Clause.condition ctx) = conditions.map .ok) :
    conditions.flatMap (fun c => (c.template ctx.dialect).values) =
      cs.flatMap (Clause.bound ctx.dialect) := by
  induction cs generalizing conditions with
  | nil =>
    obtain rfl := by simpa using h.symm
    rfl
  | cons clause cs ih =>
    cases conditions with
    | nil => simp at h
    | cons c conditions =>
      obtain ⟨hclause, htail⟩ := List.cons.inj h
      rw [List.flatMap_cons, List.flatMap_cons, Clause.values_of_condition hclause, ih htail]

namespace Compiler

variable {c : Compiler} {query sql : String} {sink sink' : Sink}

/-- The values that the clauses of a tree bind, in order. -/
def boundValues (c : Compiler) (T : Tree Clause .disj) : List Scalar :=
  T.atoms.flatMap (Clause.bound c.dialect)

/-- The names that a filter takes from a sink, one for each value that its tree binds. -/
def takenNames (c : Compiler) (T : Tree Clause .disj) (sink : Sink) : List String :=
  sink.counter.names (c.boundValues T).length

/-- What is bound in the SQL of a filter with the tree `T` is what the sink has gained. -/
structure Binds (c : Compiler) (query : String) (sink : Sink) (sql : String) (sink' : Sink)
    (T : Tree Clause .disj) : Prop where
  tree : c.HasTree query T
  /-- The placeholders outside of literals are the next names of the sink, in order. -/
  placeholders : ∃ gs, Sql.glyphs sql = some gs ∧
    Sql.placeholders sink.counter.stem gs = c.takenNames T sink
  nodup : (c.takenNames T sink).Nodup
  /-- They are bound to the values of the filter, in order. -/
  bound : List.Forall₂ (fun name v => sink'.get? name = some v) (c.takenNames T sink)
    (c.boundValues T)
  /-- Other names are bound to what they were bound to. -/
  unchanged : ∀ name, name ∉ c.takenNames T sink → sink'.get? name = sink.get? name
  /-- They were not bound before, if the sink was made from a counter. -/
  fresh : sink.Reachable → ∀ name ∈ c.takenNames T sink, sink.get? name = none
  /-- The sink goes on behind them, -/
  counter : sink'.counter = sink.counter.advance (c.boundValues T).length
  /-- and can take another filter. -/
  reachable : sink.Reachable → sink'.Reachable

/-- If the columns have no colons and no quotes, no free code of a filter has any. -/
lemma HasTree.formed_template {T : Tree Clause .disj} {C : Tree Condition .disj}
    (hT : c.HasTree query T) (hC : T.map (Clause.condition c.context) = C.map .ok)
    (hcolumns : ∀ name x, c.builtins.column? name = some x → ':' ∉ x.toList ∧ '\'' ∉ x.toList) :
    Template.Formed (fun x => ':' ∉ x.toList ∧ '\'' ∉ x.toList) 1 (C.template c.dialect) 1 := by
  have hnumbers : ∀ x : String, (∀ a ∈ x.toList, Lexeme.isNumberChar a = true) →
      ':' ∉ x.toList ∧ '\'' ∉ x.toList :=
    fun x hx => ⟨fun hc => absurd (hx _ hc) (by decide), fun hq => absurd (hx _ hq) (by decide)⟩
  exact C.formed_template c.dialect fun condition hmem =>
    hT.forall_codes hC hcolumns hnumbers hmem

/-- If the columns have no colons and no quotes, the placeholders of a filter and the values in its
sink correspond. -/
lemma exists_binds_of_compileInto
    (hcolumns : ∀ name x, c.builtins.column? name = some x → ':' ∉ x.toList ∧ '\'' ∉ x.toList)
    (h : c.compileInto query sink = .ok (sql, sink')) : ∃ T, Binds c query sink sql sink' T := by
  obtain ⟨T, C, hT, hC, -, hfill⟩ := compileInto_eq_ok h
  have hvalues : (C.template c.dialect).values = c.boundValues T := by
    have hatoms := congrArg Tree.atoms hC
    rw [Tree.atoms_map, Tree.atoms_map] at hatoms
    rw [Tree.values_template]
    exact Tree.flatMap_bound hatoms
  have hformed := hT.formed_template hC hcolumns
  have hglyphs := Template.glyphs_fill (hformed.spaced fun x hx => hx.2) sink
  have hplaceholders := hformed.placeholders_glyphs (fun x hx => hx.1) sink.counter
  have hbound := Template.forall₂_get?_fill (C.template c.dialect) sink
  have hunchanged := fun name : String =>
    @Template.get?_fill_of_notMem name (C.template c.dialect) sink
  have hcounter := Template.counter_fill (C.template c.dialect) sink
  have hreachable := fun hsink : sink.Reachable => hsink.fill (C.template c.dialect)
  rw [hvalues] at hplaceholders hbound hcounter hunchanged
  rw [hfill] at hglyphs hbound hcounter hunchanged hreachable
  exact ⟨T, hT, ⟨_, hglyphs, hplaceholders⟩, Counter.nodup_names _ _, hbound, hunchanged,
    fun hsink name hname => hsink.get?_eq_none hname, hcounter, hreachable⟩

/-- If a filter is compiled by itself, every placeholder in the SQL is bound, and everything that
is bound has its placeholder. -/
lemma mem_placeholders_iff
    (hcolumns : ∀ name x, c.builtins.column? name = some x → ':' ∉ x.toList ∧ '\'' ∉ x.toList)
    {fragment : Fragment} (h : c.compile query = .ok fragment) :
    ∃ gs, Sql.glyphs fragment.sql = some gs ∧
      ∀ name, name ∈ Sql.placeholders c.stem gs ↔ fragment.params.contains name = true := by
  obtain ⟨sink', hinto, hparams⟩ := compile_eq_ok h
  obtain ⟨T, hbinds⟩ := exists_binds_of_compileInto hcolumns hinto
  obtain ⟨gs, hgs, hplaceholders⟩ := hbinds.placeholders
  refine ⟨gs, hgs, fun name => ?_⟩
  have hnames : name ∈ Sql.placeholders c.stem gs ↔
      name ∈ c.takenNames T (.ofStem c.stem) := by rw [← hplaceholders]; rfl
  rw [hnames, hparams, Table.contains]
  constructor
  · intro hname
    obtain ⟨hlength, hbound⟩ := List.forall₂_iff_get.1 hbinds.bound
    obtain ⟨i, rfl⟩ := List.mem_iff_get.1 hname
    have hv := hbound i i.isLt (hlength ▸ i.isLt)
    exact Option.isSome_iff_exists.2 ⟨_, hv⟩
  · intro hname
    by_contra hnot
    -- the sink of the filter was empty, so what was not taken is not bound
    have hnone : sink'.get? name = none := hbinds.unchanged name hnot
    rw [Sink.get?] at hnone
    rw [hnone] at hname
    cases hname

/-- If the columns have no colons and no quotes, the placeholders of a filter and the values in its
sink correspond, for every sink; and a filter that is compiled by itself has neither a placeholder
that is not bound nor a value without a placeholder. -/
theorem placeholders_correspond
    (hcolumns : ∀ name x, c.builtins.column? name = some x → ':' ∉ x.toList ∧ '\'' ∉ x.toList) :
    (∀ query sink sql sink', c.compileInto query sink = .ok (sql, sink') →
      ∃ T, Binds c query sink sql sink' T) ∧
    ∀ query fragment, c.compile query = .ok fragment →
      ∃ gs, Sql.glyphs fragment.sql = some gs ∧
        ∀ name, name ∈ Sql.placeholders c.stem gs ↔ fragment.params.contains name = true :=
  ⟨fun _ _ _ _ h => exists_binds_of_compileInto hcolumns h,
    fun _ _ h => mem_placeholders_iff hcolumns h⟩

/-- A filter with a string that looks like a placeholder, which PostgreSQL has inside of a literal,
and with a list and a path with a locale, which are bound. -/
theorem placeholders_correspond_of_misleading_string :
    ∃ sql sink' T,
      (ofDialect .postgres (Table.empty.insert "id" "n.id")).compileInto
        "a = ':p7' | id @ [1, 'x'] & path.de = '/y'" (.ofStem .default) = .ok (sql, sink') ∧
      Binds (ofDialect .postgres (Table.empty.insert "id" "n.id"))
        "a = ':p7' | id @ [1, 'x'] & path.de = '/y'" (.ofStem .default) sql sink' T := by
  have hcolumns : ∀ name x, Builtins.column? (Table.empty.insert "id" "n.id") name = some x →
      ':' ∉ x.toList ∧ '\'' ∉ x.toList :=
    Builtins.forall_column_of_single (by decide)
  obtain ⟨⟨sql, sink'⟩, h⟩ : ∃ r,
      (ofDialect .postgres (Table.empty.insert "id" "n.id")).compileInto
        "a = ':p7' | id @ [1, 'x'] & path.de = '/y'" (.ofStem .default) = .ok r :=
    Except.exists_of_isOk (by decide +kernel)
  obtain ⟨T, hbinds⟩ := (placeholders_correspond hcolumns).1 _ _ _ _ h
  exact ⟨sql, sink', T, h, hbinds⟩

end Compiler
end ContentFilter
