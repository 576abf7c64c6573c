import ContentFilter.Proofs.Filter.Placeholders
import ContentFilter.Proofs.Sql.Renaming
/-!
# Sinks differ in names only

A filter that is compiled into a sink is the filter compiled by itself, with the names of its
placeholders moved to the next names of the sink (`Compiler.compileInto_renames`).  That is so for
the SQL, where the names are those of the placeholders outside of literals, and for the values that
the sink gains.  The columns of the builtins are trusted to have no colon and no quote.
-/

namespace ContentFilter

open ContentFilter.Filter

/-- To rename the placeholders of a well-formed template is to fill its holes from another counter. -/
lemma Template.Formed.renameGlyphs_glyphs {Q : String → Prop} {d e : Nat} {t : Template}
    (h : Formed Q d t e) (hQ : ∀ x, Q x → ':' ∉ x.toList) (stem : Stem) (c : Counter) (i : Nat) :
    Sql.renameGlyphs stem (c.moved stem) 0 (t.glyphs ⟨stem, i⟩) = t.glyphs (c.advance i) := by
  induction h generalizing i with
  | nil => rfl
  | code hx _ _ ih =>
    simp only [Sql.fixed, Bool.and_eq_true] at hx
    rw [glyphs, glyphs, Sql.codeGlyphs, Sql.renameGlyphs_nameless (Sql.nameless_of_quiet hx.1.2), ih]
  | free hx _ _ ih =>
    rw [glyphs, glyphs, Sql.codeGlyphs,
      Sql.renameGlyphs_nameless (Sql.nameless_of_notMem (hQ _ hx)), ih]
  | literal _ _ ih => rw [glyphs, glyphs, Sql.renameGlyphs_literal, ih]
  | @hole _ _ v r hr _ ih =>
    have hname := Sql.renameGlyphs_name (f := c.moved stem) ⟨stem, i⟩
      (hr.not_isDigit (Counter.succ ⟨stem, i⟩))
    have hmoved : c.moved stem (Counter.name ⟨stem, i⟩) = (c.advance i).name :=
      c.moved_nameAt stem i
    have htail : Sql.renameGlyphs stem (c.moved stem) 0 (glyphs (Counter.succ ⟨stem, i⟩) r) =
        glyphs (c.advance i).succ r := ih (i + 1)
    rw [glyphs, glyphs, List.cons_append, List.cons_append, hname, hmoved, htail]

namespace Compiler

variable {c : Compiler} {query sql : String} {sink sink' : Sink} {fragment : Fragment}

/-- What a filter is compiled to with a sink is a fragment of another stem with its names moved. -/
structure Renames (stem : Stem) (fragment : Fragment) (sink : Sink) (sql : String) (sink' : Sink) :
    Prop where
  /-- In the SQL the names of the placeholders are moved. -/
  sql : Sql.rename stem (sink.counter.moved stem) fragment.sql = some sql
  /-- The sink gains the values of the fragment, under the moved names, -/
  gained : ∀ name v, (sink'.since sink).find? name = some v ↔
    ∃ old, fragment.params.find? old = some v ∧ sink.counter.moved stem old = name
  /-- and keeps what it has under other names. -/
  kept : ∀ name, sink'.get? name = ((sink'.since sink).find? name).or (sink.get? name)
  /-- It goes on behind the names of the fragment. -/
  counter : sink'.counter = sink.counter.advance fragment.params.size

/-- With columns that have no colon and no quote, a filter is compiled into a sink as it is compiled
by itself, under the names of the sink. -/
theorem compileInto_renames
    (hcolumns : ∀ name x, c.builtins.column? name = some x → ':' ∉ x.toList ∧ '\'' ∉ x.toList)
    (h : c.compile query = .ok fragment) (sink : Sink) :
    ∃ sql sink', c.compileInto query sink = .ok (sql, sink') ∧
      Renames c.stem fragment sink sql sink' := by
  obtain ⟨own, hinto, hparams⟩ := compile_eq_ok h
  obtain ⟨T, C, hT, hC, hparse, hfill⟩ := compileInto_eq_ok hinto
  refine ⟨_, _, compileInto_of_nodes hparse sink, ?_⟩
  have hformed := hT.formed_template hC hcolumns
  generalize C.template c.dialect = t at hfill hformed
  have hsql : fragment.sql = (t.fill (.ofStem c.stem)).1 := (congrArg Prod.fst hfill).symm
  have hvalues : fragment.params = (t.fill (.ofStem c.stem)).2.values := by rw [hfill, hparams]
  have hfind : ∀ old v, fragment.params.find? old = some v ↔
      ∃ i, Counter.nameAt c.stem i = old ∧ t.values[i]? = some v := by
    intro old v
    rw [hvalues]
    exact t.get?_fill_ofStem_eq_some_iff c.stem old v
  refine ⟨?_, fun name v => ?_, t.get?_fill_eq sink, ?_⟩
  · have hspaced := hformed.spaced fun x hx => hx.2
    have hmoved := hformed.renameGlyphs_glyphs (fun x hx => hx.1) c.stem sink.counter 0
    rw [Counter.advance_zero] at hmoved
    rw [Sql.rename, hsql, Template.glyphs_fill hspaced, Option.map_some]
    refine congrArg some ?_
    calc String.ofList (Sql.printGlyphs _)
        = String.ofList (Sql.printGlyphs (t.glyphs sink.counter)) :=
          congrArg (fun gs => String.ofList (Sql.printGlyphs gs)) hmoved
      _ = (t.fill sink).1 := Sql.printGlyphs_glyphs (Template.glyphs_fill hspaced sink)
  · rw [t.find?_since_fill_eq_some_iff sink name v]
    constructor
    · rintro ⟨i, rfl, hv⟩
      exact ⟨_, (hfind _ v).2 ⟨i, rfl, hv⟩, sink.counter.moved_nameAt c.stem i⟩
    · rintro ⟨old, hold, rfl⟩
      obtain ⟨i, rfl, hv⟩ := (hfind old v).1 hold
      exact ⟨i, (sink.counter.moved_nameAt c.stem i).symm, hv⟩
  · have hsize : fragment.params.size = t.values.length := by
      rw [hvalues]
      exact t.size_fill_ofCounter (.ofStem c.stem)
    rw [hsize, Template.counter_fill]

/-- A filter that goes on behind the seventh placeholder of another stem.  A string in it looks like
a placeholder of the default stem, and stays as it is. -/
theorem compileInto_renames_behind_seven :
    ∃ fragment sql sink',
      (ofDialect .postgres (Table.empty.insert "id" "n.id")).compile
        "a = ':p1' | id @ [1, 'x'] & path.de = '/y'" = .ok fragment ∧
      (ofDialect .postgres (Table.empty.insert "id" "n.id")).compileInto
        "a = ':p1' | id @ [1, 'x'] & path.de = '/y'" (.ofCounter ⟨⟨"q", by decide⟩, 7⟩) =
          .ok (sql, sink') ∧
      Renames .default fragment (.ofCounter ⟨⟨"q", by decide⟩, 7⟩) sql sink' := by
  have hcolumns : ∀ name x, Builtins.column? (Table.empty.insert "id" "n.id") name = some x →
      ':' ∉ x.toList ∧ '\'' ∉ x.toList :=
    Builtins.forall_column_of_single (by decide)
  obtain ⟨fragment, h⟩ : ∃ fragment,
      (ofDialect .postgres (Table.empty.insert "id" "n.id")).compile
        "a = ':p1' | id @ [1, 'x'] & path.de = '/y'" = .ok fragment :=
    Except.exists_of_isOk (by decide +kernel)
  obtain ⟨sql, sink', hinto, hrenames⟩ :=
    compileInto_renames hcolumns h (.ofCounter ⟨⟨"q", by decide⟩, 7⟩)
  exact ⟨fragment, sql, sink', h, hinto, hrenames⟩

end Compiler
end ContentFilter
