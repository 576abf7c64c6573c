import ContentFilter.Proofs.Condition.Related
import ContentFilter.Proofs.Filter.Compiled
/-!
# No injection

What stands in the strings of a filter does not reach the code of its SQL, and neither do the names
of its fields and the locales of its paths.  Two filters of one form (`Token.Akin`) are compiled to
texts that are the same outside of literals, in which all literals are closed
(`Compiler.sameOutside_of_akin`).  In SQLite strings do not even reach the literals: if the fields
are equal as well, so is the SQL.

The proof runs the compiler on both filters in step: the derivations of their tokens have the same
rules, their clauses give conditions that are alike, and these have similar templates.
-/

namespace ContentFilter
namespace Filter

variable {b : Builtins} {exact : Prop}

/-- Clauses of tokens that are alike. -/
inductive Clause.Alike (b : Builtins) (exact : Prop) : Clause → Clause → Prop
  | lone {t t' : Token} : Token.Alike b exact t t' → Alike b exact (.lone t) (.lone t')
  | triple {left left' operator operator' right right' : Token} :
      Token.Alike b exact left left' → Token.Alike b exact operator operator' →
      Token.Alike b exact right right' →
      Alike b exact (.triple left operator right) (.triple left' operator' right')

/-- Parts with clauses that are alike. -/
inductive Part.Alike (b : Builtins) (exact : Prop) : Part → Part → Prop
  | clause {c c' : Clause} : c.Alike b exact c' → Alike b exact (.clause c) (.clause c')
  | connective (k : Kind) : Alike b exact (.connective k) (.connective k)
  | leftParen : Alike b exact .leftParen .leftParen
  | rightParen : Alike b exact .rightParen .rightParen

/-- A derivation can be followed on tokens that are alike. -/
lemma Derives.alike {s : Symbol} {ts us : List Token} {ps : List Part} (h : Derives s ts ps)
    (hts : List.Forall₂ (Token.Alike b exact) ts us) :
    ∃ qs, Derives s us qs ∧ List.Forall₂ (Part.Alike b exact) ps qs := by
  induction h generalizing us with
  | single _ ih =>
    obtain ⟨qs, hd, hp⟩ := ih hts
    exact ⟨qs, .single hd, hp⟩
  | join _ hc _ ih₁ ih₂ =>
    obtain ⟨us₁, vs, rfl, hus, hvs⟩ := List.exists_of_forall₂_append hts
    obtain ⟨c', us₂, hc', hus', rfl⟩ := List.forall₂_cons_left_iff.1 hvs
    obtain ⟨qs₁, hd₁, hp₁⟩ := ih₁ hus
    obtain ⟨qs₂, hd₂, hp₂⟩ := ih₂ hus'
    refine ⟨_, .join hd₁ (hc'.group_eq ▸ hc) hd₂, List.rel_append hp₁ (.cons ?_ hp₂)⟩
    rw [hc'.kind_eq]
    exact .connective _
  | parens hl _ hr ih =>
    obtain ⟨l', vs, hl', hvs, rfl⟩ := List.forall₂_cons_left_iff.1 hts
    obtain ⟨us', ws, rfl, hus, hws⟩ := List.exists_of_forall₂_append hvs
    obtain ⟨r', us'', hr', hnil, rfl⟩ := List.forall₂_cons_left_iff.1 hws
    obtain rfl := List.forall₂_nil_left_iff.1 hnil
    obtain ⟨qs, hd, hp⟩ := ih hus
    exact ⟨_, .parens (hl'.group_eq ▸ hl) hd (hr'.group_eq ▸ hr),
      .cons .leftParen (List.rel_append hp (.cons .rightParen .nil))⟩
  | lone ht =>
    obtain ⟨t', us', ht', hnil, rfl⟩ := List.forall₂_cons_left_iff.1 hts
    obtain rfl := List.forall₂_nil_left_iff.1 hnil
    exact ⟨_, .lone (ht'.group_eq ▸ ht), .cons (.clause (.lone ht')) .nil⟩
  | triple hl ho hr =>
    obtain ⟨l', us₁, hl', hus₁, rfl⟩ := List.forall₂_cons_left_iff.1 hts
    obtain ⟨o', us₂, ho', hus₂, rfl⟩ := List.forall₂_cons_left_iff.1 hus₁
    obtain ⟨r', us₃, hr', hnil, rfl⟩ := List.forall₂_cons_left_iff.1 hus₂
    obtain rfl := List.forall₂_nil_left_iff.1 hnil
    exact ⟨_, .triple (hl'.group_eq ▸ hl) (ho'.group_eq ▸ ho) (hr'.group_eq ▸ hr),
      .cons (.clause (.triple hl' ho' hr')) .nil⟩

/-- Clauses that are alike make conditions that are alike. -/
lemma Clause.Alike.condition {ctx : Context} {clause clause' : Clause} {c c' : Condition}
    (h : clause.Alike ctx.builtins exact clause') (hc : clause.condition ctx = .ok c)
    (hc' : clause'.condition ctx = .ok c') : c.Alike exact c' := by
  cases h with
  | lone ht => exact Condition.alike_of_ofLone ht hc hc'
  | triple hl ho hr =>
    have hreads' := Condition.ofTriple_eq_ok_iff.1 hc'
    exact (Condition.ofTriple_eq_ok_iff.1 hc).alike hl ho hr hreads'

end Filter

/-! ## Nodes -/

open ContentFilter.Filter

/-- Nodes of one dialect with conditions that are alike. -/
inductive Node.Alike (d : Dialect) (exact : Prop) : Node → Node → Prop
  | condition {c c' : Condition} : c.Alike exact c' →
      Alike d exact (.condition d c) (.condition d c')
  | connective (k : Kind) : Alike d exact (.connective k) (.connective k)
  | leftParen : Alike d exact .leftParen .leftParen
  | rightParen : Alike d exact .rightParen .rightParen

variable {exact : Prop} {d : Dialect} {n m : Node}

/-- Parts that are alike yield nodes that are alike. -/
lemma Filter.Yields.alike {ctx : Context} {ps qs : List Part} {ns ms : List Node}
    (hps : List.Forall₂ (Part.Alike ctx.builtins exact) ps qs) (hns : Yields ctx ps ns)
    (hms : Yields ctx qs ms) : List.Forall₂ (Node.Alike ctx.dialect exact) ns ms := by
  induction hps generalizing ns ms with
  | nil =>
    cases hns
    cases hms
    exact .nil
  | cons hp _ ih =>
    cases hns with
    | cons hn hns =>
      cases hms with
      | cons hm hms =>
        refine .cons ?_ (ih hns hms)
        cases hp with
        | clause hclause =>
          simp only [Part.node, Clause.node_eq, Except.map_eq_ok_iff] at hn hm
          obtain ⟨c, hc, rfl⟩ := hn
          obtain ⟨c', hc', rfl⟩ := hm
          exact .condition (hclause.condition hc hc')
        | connective k =>
          cases hn
          cases hm
          exact .connective k
        | leftParen =>
          cases hn
          cases hm
          exact .leftParen
        | rightParen =>
          cases hn
          cases hm
          exact .rightParen

namespace Node

lemma Alike.similar (h : Alike d exact n m) (hexact : exact → d = .sqlite) :
    Template.Similar exact n.template m.template := by
  cases h with
  | condition hc => exact hc.similar hexact
  | connective k => exact .refl _
  | leftParen => exact .refl _
  | rightParen => exact .refl _

/-- Nodes that are alike are written with the same spaces between them. -/
lemma similar_templateFrom {ns ms : List Node} (h : List.Forall₂ (Alike d exact) ns ms)
    (hexact : exact → d = .sqlite) (hug : Bool) :
    Template.Similar exact (templateFrom hug ns) (templateFrom hug ms) := by
  induction h generalizing hug with
  | nil => exact .nil
  | @cons n m _ _ hn _ ih =>
    have hleft : n = .leftParen ↔ m = .leftParen := by cases hn <;> simp
    have hright : n = .rightParen ↔ m = .rightParen := by cases hn <;> simp
    have htail := ih (decide (m = .leftParen))
    simp only [templateFrom, hleft, hright]
    exact ((Template.Similar.refl _).append (hn.similar hexact)).append htail

end Node

/-! ## Filters -/

namespace Compiler

variable {c : Compiler} {query query' sql sql' : String} {sink sink' after after' : Sink}
  {raw raw' : List Token}

/-- Filters of one form have similar templates, in which literals and holes are parted from the
code. -/
lemma exists_similar (hcolumns : ∀ name x, c.builtins.column? name = some x → '\'' ∉ x.toList)
    (hexact : exact → c.dialect = .sqlite) (hraw : Token.ofSource c.builtins query = .ok raw)
    (hraw' : Token.ofSource c.builtins query' = .ok raw')
    (hakin : List.Forall₂ (Token.Akin exact) raw raw')
    (h : c.compileInto query sink = .ok (sql, after))
    (h' : c.compileInto query' sink' = .ok (sql', after')) :
    ∃ t u : Template, t.Similar exact u ∧ t.Spaced ∧ u.Spaced ∧ (t.fill sink).1 = sql ∧
      (u.fill sink').1 = sql' := by
  obtain ⟨T, C, hT, hC, hparse, hfill⟩ := compileInto_eq_ok h
  obtain ⟨T', C', hT', hC', hparse', hfill'⟩ := compileInto_eq_ok h'
  have ⟨ts, hts, _⟩ := hT
  have ⟨ts', hts', _⟩ := hT'
  obtain ⟨ps, hps, hyields⟩ := (parse_eq_ok_iff hts).1 hparse
  obtain ⟨ps', hps', hyields'⟩ := (parse_eq_ok_iff hts').1 hparse'
  -- the derivation of the first filter, followed on the second, is the one that was read there
  obtain ⟨qs, hqs, hparts⟩ := hps.alike (tokens_alike hraw hraw' hakin hts hts')
  obtain rfl := hqs.parts_unique hps'
  have hnodes : List.Forall₂ (Node.Alike c.context.dialect exact) (C.nodes c.dialect)
      (C'.nodes c.dialect) := Yields.alike hparts hyields hyields'
  have hsimilar := Node.similar_templateFrom hnodes hexact true
  have htemplate := C.templateOf_nodes c.dialect
  have htemplate' := C'.templateOf_nodes c.dialect
  rw [Node.templateOf] at htemplate htemplate'
  rw [htemplate, htemplate'] at hsimilar
  have hnumbers : ∀ x : String, (∀ a ∈ x.toList, Lexeme.isNumberChar a = true) →
      '\'' ∉ x.toList := fun x hx hq => absurd (hx _ hq) (by decide)
  have hformed := C.formed_template c.dialect fun condition hmem =>
    hT.forall_codes hC hcolumns hnumbers hmem
  have hformed' := C'.formed_template c.dialect fun condition hmem =>
    hT'.forall_codes hC' hcolumns hnumbers hmem
  exact ⟨_, _, hsimilar, hformed.spaced fun _ hx => hx, hformed'.spaced fun _ hx => hx,
    congrArg Prod.fst hfill, congrArg Prod.fst hfill'⟩

/-- Filters of one form are compiled to the same text outside of literals, with sinks that go on
with the same names. -/
lemma sameOutside_of_compileInto
    (hcolumns : ∀ name x, c.builtins.column? name = some x → '\'' ∉ x.toList)
    (hraw : Token.ofSource c.builtins query = .ok raw)
    (hraw' : Token.ofSource c.builtins query' = .ok raw')
    (h : c.compileInto query sink = .ok (sql, after))
    (h' : c.compileInto query' sink' = .ok (sql', after'))
    (hsinks : sink.counter = sink'.counter) :
    (List.Forall₂ (Token.Akin False) raw raw' → Sql.SameOutside sql sql') ∧
      (c.dialect = .sqlite → List.Forall₂ (Token.Akin True) raw raw' → sql = sql') := by
  constructor
  · intro hakin
    obtain ⟨t, u, hsimilar, ht, hu, rfl, rfl⟩ :=
      exists_similar hcolumns False.elim hraw hraw' hakin h h'
    exact hsimilar.sameOutside ht hu hsinks
  · intro hdialect hakin
    obtain ⟨t, u, hsimilar, -, -, rfl, rfl⟩ :=
      exists_similar hcolumns (fun _ => hdialect) hraw hraw' hakin h h'
    exact hsimilar.fill_eq trivial hsinks

/-- Two filters that are accepted and differ only in strings, in fields with equally many segments
and the same wildcard, and in locales, are compiled to the same text outside of literals, and all
literals are closed.  In SQLite, if their fields are equal, they are compiled to the same text. -/
theorem sameOutside_of_akin
    (hcolumns : ∀ name x, c.builtins.column? name = some x → '\'' ∉ x.toList)
    (hraw : Token.ofSource c.builtins query = .ok raw)
    (hraw' : Token.ofSource c.builtins query' = .ok raw') {fragment fragment' : Fragment}
    (h : c.compile query = .ok fragment) (h' : c.compile query' = .ok fragment') :
    (List.Forall₂ (Token.Akin False) raw raw' → Sql.SameOutside fragment.sql fragment'.sql) ∧
      (c.dialect = .sqlite → List.Forall₂ (Token.Akin True) raw raw' →
        fragment.sql = fragment'.sql) := by
  obtain ⟨after, hinto, -⟩ := compile_eq_ok h
  obtain ⟨after', hinto', -⟩ := compile_eq_ok h'
  exact sameOutside_of_compileInto hcolumns hraw hraw' hinto hinto' rfl

/-- A string that tries to leave its literal, in place of one that does not. -/
theorem sameOutside_of_quote_in_string :
    ∃ fragment fragment',
      (ofDialect .postgres .empty).compile "a = \"x\"" = .ok fragment ∧
      (ofDialect .postgres .empty).compile "b = \"' OR '1' = '1\"" = .ok fragment' ∧
      Sql.SameOutside fragment.sql fragment'.sql := by
  have hread : ∀ q, ((ofDialect .postgres .empty).compile q).isOk = true →
      (Token.ofSource .empty q).isOk = true → ∃ fragment raw,
        (ofDialect .postgres .empty).compile q = .ok fragment ∧
        Token.ofSource .empty q = .ok raw := by
    intro q hq hraw
    obtain ⟨fragment, hfragment⟩ := Except.exists_of_isOk hq
    obtain ⟨raw, hraw⟩ := Except.exists_of_isOk hraw
    exact ⟨fragment, raw, hfragment, hraw⟩
  obtain ⟨fragment, raw, h, hraw⟩ := hread "a = \"x\"" (by decide +kernel) (by decide +kernel)
  obtain ⟨fragment', raw', h', hraw'⟩ :=
    hread "b = \"' OR '1' = '1\"" (by decide +kernel) (by decide +kernel)
  have hlexemes : (Token.ofSource .empty "a = \"x\"").map
      (·.map fun t => (t.kind, t.lexeme)) = .ok [(.field, "a"),
        (.operator (.compare .eq), "="), (.string, "x")] := by decide +kernel
  have hlexemes' : (Token.ofSource .empty "b = \"' OR '1' = '1\"").map
      (·.map fun t => (t.kind, t.lexeme)) = .ok [(.field, "b"),
        (.operator (.compare .eq), "="), (.string, "' OR '1' = '1")] := by decide +kernel
  rw [hraw] at hlexemes
  rw [hraw'] at hlexemes'
  have hakin : List.Forall₂ (Token.Akin False) raw raw' := by
    have hpath : FieldPath.ofText? "a" = some ⟨"a", [], none⟩ ∧
        FieldPath.ofText? "b" = some ⟨"b", [], none⟩ := by decide +kernel
    have hpairs : List.Forall₂ (fun p q : Kind × String => ∀ t t' : Token,
        (t.kind, t.lexeme) = p → (t'.kind, t'.lexeme) = q → Token.Akin False t t')
        [(.field, "a"), (.operator (.compare .eq), "="), (.string, "x")]
        [(.field, "b"), (.operator (.compare .eq), "="), (.string, "' OR '1' = '1")] := by
      refine .cons ?_ (.cons ?_ (.cons ?_ .nil))
      all_goals
        intro t t' ht ht'
        obtain ⟨hk, hl⟩ := Prod.mk.inj ht
        obtain ⟨hk', hl'⟩ := Prod.mk.inj ht'
        refine ⟨hk.trans hk'.symm, ?_⟩
        rw [hk]
      · exact .inr ⟨id, ⟨"a", [], none⟩, ⟨"b", [], none⟩, by rw [hl]; exact hpath.1,
          by rw [hl']; exact hpath.2, rfl, rfl⟩
      · exact hl.trans hl'.symm
      · trivial
    rw [← Except.ok.inj hlexemes, ← Except.ok.inj hlexemes', List.forall₂_map_left_iff,
      List.forall₂_map_right_iff] at hpairs
    exact hpairs.imp fun t t' h => h t t' rfl rfl
  exact ⟨fragment, fragment', h, h',
    (sameOutside_of_akin (by simp [ofDialect, Builtins.column?]) hraw hraw' h h').1 hakin⟩

end Compiler
end ContentFilter
