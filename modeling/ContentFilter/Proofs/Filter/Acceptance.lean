import ContentFilter.Proofs.Filter.Reading
import ContentFilter.Proofs.Token.Source
/-!
# The filters that are accepted

A compiler accepts a filter exactly if its tokens are an expression of the grammar and every
clause of the expression is accepted by the constructor of its condition; the nodes are then, in
the order of the source, one for each clause, connective and parenthesis of the expression, which
is unique (`Compiler.parse_iff_derives`).
-/

namespace ContentFilter

open ContentFilter.Filter

/-- If all clauses of an expression are accepted, there are nodes for all its parts. -/
lemma Filter.exists_yields_iff {ctx : Context} {ps : List Part} :
    (∃ ns, Yields ctx ps ns) ↔ ∀ c, Part.clause c ∈ ps → ∃ n, c.node ctx = .ok n := by
  refine List.exists_forall₂_iff.trans ⟨fun h c hc => h _ hc, fun h p hp => ?_⟩
  cases p with
  | clause c => exact h c hp
  | connective k => exact ⟨_, rfl⟩
  | leftParen => exact ⟨_, rfl⟩
  | rightParen => exact ⟨_, rfl⟩

namespace Compiler

variable {c : Compiler} {query : String} {ts : List Token}

lemma parse_eq_nodes (h : c.tokens query = .ok ts) :
    c.parse query = Filter.nodes c.context query ts := by
  simp only [tokens, Except.bind_eq_ok_iff] at h
  obtain ⟨raw, hraw, hfold⟩ := h
  simp only [parse, hraw, hfold, bind, Except.bind]

/-- The nodes of a filter are those of the parts of its tokens. -/
lemma parse_eq_ok_iff (h : c.tokens query = .ok ts) {ns : List Node} :
    c.parse query = .ok ns ↔ ∃ ps, Derives .expr ts ps ∧ Yields c.context ps ns := by
  rw [parse_eq_nodes h, Filter.nodes, Except.mapError_eq_ok_iff]
  exact read_eq_ok_iff fun t ht => (fromSource_of_mem_tokens h ht).group_eq

/-- A filter with the given tokens is accepted exactly if they are derivable from the grammar and
every clause is accepted; its nodes are those of the parts of the derivation, one by one, and no
other derivation has other parts. -/
theorem parse_iff_derives (h : c.tokens query = .ok ts) :
    ((∃ ns, c.parse query = .ok ns) ↔
      ∃ ps, Derives .expr ts ps ∧
        ∀ clause, Part.clause clause ∈ ps → ∃ n, clause.node c.context = .ok n) ∧
    ∀ ns, c.parse query = .ok ns ↔
      ∃ ps, Derives .expr ts ps ∧ Yields c.context ps ns ∧
        ∀ qs, Derives .expr ts qs → qs = ps := by
  constructor
  · simp only [← exists_yields_iff, parse_eq_ok_iff h]
    exact ⟨fun ⟨ns, ps, hd, hy⟩ => ⟨ps, hd, ns, hy⟩, fun ⟨ps, hd, ns, hy⟩ => ⟨ns, ps, hd, hy⟩⟩
  · intro ns
    rw [parse_eq_ok_iff h]
    constructor
    · rintro ⟨ps, hd, hy⟩
      exact ⟨ps, hd, hy, fun qs hq => hq.parts_unique hd⟩
    · rintro ⟨ps, hd, hy, -⟩
      exact ⟨ps, hd, hy⟩

/-- A filter with parentheses, a wildcard and a list: its seven nodes are those of a derivation. -/
theorem parse_nested_filter :
    ∃ ts, (ofDialect .postgres .empty).tokens "(a | b.*) & path.de @ ['x']" = .ok ts ∧
      ts.map Token.kind = [.leftParen, .field, .or, .field, .rightParen, .and, .path,
        .operator (.member false), .list] ∧
      ∃ ps, Derives .expr ts ps ∧
        Yields ⟨.postgres, .empty⟩ ps
          [.leftParen, .condition .postgres (.presence ⟨"a", [], none⟩), .connective .or,
            .condition .postgres (.presence ⟨"b", [], some .any⟩), .rightParen,
            .connective .and,
            .condition .postgres
              (.urlPath (.operator (.member false)) (.list [.string "x"]) (some "de"))] ∧
        ∀ qs, Derives .expr ts qs → qs = ps := by
  obtain ⟨ts, hts⟩ : ∃ ts, (ofDialect .postgres .empty).tokens "(a | b.*) & path.de @ ['x']" =
      .ok ts := Except.exists_of_isOk (by decide +kernel)
  have hkinds : ((ofDialect .postgres .empty).tokens "(a | b.*) & path.de @ ['x']").map
      (·.map Token.kind) = .ok [.leftParen, .field, .or, .field, .rightParen, .and, .path,
        .operator (.member false), .list] := by decide +kernel
  rw [hts] at hkinds
  exact ⟨ts, hts, Except.ok.inj hkinds, ((parse_iff_derives hts).2 _).1 (by decide +kernel)⟩

end Compiler
end ContentFilter
