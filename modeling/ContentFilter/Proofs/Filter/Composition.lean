import ContentFilter.Proofs.Condition.Reading
import ContentFilter.Proofs.Filter.Compiled
import ContentFilter.Proofs.Sql.Merge
import ContentFilter.Proofs.Token.Placement
/-!
# Filters composed in the source

What a filter is compiled to does not depend on what stands around it.  Its tokens have the same
texts at another place of a longer source, they are the same expression there and make the same
conditions; so a filter in parentheses, and two filters with a connective between them, have the
nodes of the filters they are made of (`Compiler.parse_parens`, `Compiler.parse_connect`).  The SQL
is composed in the same way, with the sink handed from one filter to the next, and the conjunction
of two filters in parentheses is the merge of their fragments (`Compiler.compileInto_composed`).
-/

namespace ContentFilter

/-! ## Conditions at another place -/

section

variable {b : Builtins} {t left operator right : Token} (k : Nat)

lemma Location.Reads.shift {l : Location} (h : l.Reads b t) : l.Reads b (t.shift k) := by
  cases h with
  | field hk hf => exact .field hk hf
  | column hk hc => exact .column hk hc

lemma Subject.Reads.shift {l : Subject} (h : l.Reads b t) : l.Reads b (t.shift k) := by
  cases h with
  | number hk => exact .number hk
  | boolean hk => exact .boolean hk
  | location hl => exact .location (hl.shift k)

lemma Operand.Reads.shift {v : Operand} (h : v.Reads b t) : v.Reads b (t.shift k) := by
  cases h with
  | location hl => exact .location (hl.shift k)
  | string hk => exact .string hk
  | number hk => exact .number hk
  | boolean hk => exact .boolean hk
  | now hk => exact .now hk
  | list hk hitems =>
    refine .list hk ?_
    rw [Token.shift, List.forall₂_map_left_iff]
    exact hitems

lemma Condition.localeOf_shift {locale : Option String} (h : localeOf t = .ok locale) :
    localeOf (t.shift k) = .ok locale := by
  unfold localeOf at h ⊢
  simp only [Token.shift] at h ⊢
  split at h
  · next hsplit =>
    split at h
    · next hword => simpa only [hsplit, hword, if_true] using h
    · simp at h
  · next hsplit =>
    split at h
    · next hword => simpa only [hsplit, hword, if_true] using h
    · simp at h
  · simp at h

/-- The tokens of a condition make it at another place as well. -/
lemma Condition.Reads.shift {c : Condition} (h : c.Reads b left operator right) :
    c.Reads b (left.shift k) (operator.shift k) (right.shift k) := by
  cases h with
  | nullity negated hnull hl hwildcard hk => exact .nullity negated hnull (hl.shift k) hwildcard hk
  | pathLeft hleft hvalue hreads hk hv hlocale =>
    exact .pathLeft hleft hvalue (hreads.shift k) hk hv (localeOf_shift k hlocale)
  | pathRight hright hvalue hreads hk hv hlocale =>
    exact .pathRight hright hvalue (hreads.shift k) hk hv (localeOf_shift k hlocale)
  | comparison hl hr hk hv hright hleft hnow =>
    exact .comparison (hl.shift k) (hr.shift k) hk hv hright hleft hnow

end

namespace Filter

/-- The clause some characters further on. -/
def Clause.shift (k : Nat) : Clause → Clause
  | lone t => lone (t.shift k)
  | triple left operator right => triple (left.shift k) (operator.shift k) (right.shift k)

/-- The part some characters further on. -/
def Part.shift (k : Nat) : Part → Part
  | clause c => clause (c.shift k)
  | p => p

/-- A derivation can be followed at another place. -/
lemma Derives.shift {s : Symbol} {ts : List Token} {ps : List Part} (h : Derives s ts ps)
    (k : Nat) : Derives s (ts.map (Token.shift k)) (ps.map (Part.shift k)) := by
  induction h with
  | single _ ih => exact .single ih
  | join _ hc _ ih₁ ih₂ =>
    rw [List.map_append, List.map_append]
    exact .join ih₁ hc ih₂
  | parens hl _ hr ih =>
    simp only [List.map_cons, List.map_append, List.map_nil]
    exact .parens hl ih hr
  | lone ht => exact .lone ht
  | triple hl ho hr => exact .triple hl ho hr

/-- Two expressions with a connective between them are an expression. -/
lemma Derives.connect {ts us : List Token} {ps qs : List Part} {c : Token}
    (h : Derives .expr ts ps) (hc : c.group = .connective) (h' : Derives .expr us qs) :
    Derives .expr (ts ++ c :: us) (ps ++ .connective c.kind :: qs) :=
  expects_zero_iff.1 (h.expects (.connective hc (expects_zero_iff.2 h')))

lemma Clause.node_shift {ctx : Context} {c : Clause} {n : Node} (h : c.node ctx = .ok n)
    (k : Nat) : (c.shift k).node ctx = .ok n := by
  rw [Clause.node_eq, Except.map_eq_ok_iff] at h ⊢
  obtain ⟨condition, h, rfl⟩ := h
  refine ⟨condition, ?_, rfl⟩
  cases c with
  | lone t =>
    obtain ⟨f, hk, hf, rfl⟩ := Condition.ofLone_eq_ok_iff.1 h
    exact Condition.ofLone_eq_ok_iff.2 ⟨f, hk, hf, rfl⟩
  | triple left operator right =>
    exact Condition.ofTriple_eq_ok_iff.2 ((Condition.ofTriple_eq_ok_iff.1 h).shift k)

/-- The nodes do not depend on the place. -/
lemma Yields.shift {ctx : Context} {ps : List Part} {ns : List Node} (h : Yields ctx ps ns)
    (k : Nat) : Yields ctx (ps.map (Part.shift k)) ns := by
  rw [Yields, List.forall₂_map_left_iff]
  refine h.imp fun p n hn => ?_
  cases p with
  | clause c => exact Clause.node_shift hn k
  | _ => exact hn

/-- An expression neither begins nor ends with a connective. -/
lemma Derives.ends_ne_connective {s : Symbol} {ts : List Token} {ps : List Part}
    (h : Derives s ts ps) :
    (∀ t ∈ ts.head?, t.group ≠ .connective) ∧ ∀ t ∈ ts.getLast?, t.group ≠ .connective := by
  induction h with
  | single _ ih => exact ih
  | @join ts us _ _ _ hd _ hd' ih₁ ih₂ =>
    obtain ⟨t, ts, rfl⟩ := List.exists_cons_of_ne_nil hd.ne_nil
    obtain ⟨u, us, rfl⟩ := List.exists_cons_of_ne_nil hd'.ne_nil
    refine ⟨ih₁.1, ?_⟩
    rw [List.getLast?_append_cons, List.getLast?_cons_cons]
    exact ih₂.2
  | @parens ts _ l r hl _ hr _ =>
    have hlast : (l :: (ts ++ [r])).getLast? = some r := by
      rw [← List.cons_append, List.getLast?_concat]
    constructor
    · intro t ht
      obtain rfl := Option.some.inj ht
      simp [hl]
    · intro t ht
      rw [hlast] at ht
      obtain rfl := Option.some.inj ht
      simp [hr]
  | lone ht => simp [ht]
  | triple hl _ hr => simp [hl, hr]

end Filter

namespace Compiler

open ContentFilter.Filter

variable {c : Compiler}

/-- A source that is parsed has tokens. -/
lemma exists_tokens_of_parse {source : String} {ns : List Node} (h : c.parse source = .ok ns) :
    ∃ ts, c.tokens source = .ok ts := by
  obtain ⟨raw, hraw, h⟩ := Except.bind_eq_ok_iff.1 h
  obtain ⟨ts, hfold, -⟩ := Except.bind_eq_ok_iff.1 h
  exact ⟨ts, Except.bind_eq_ok_iff.2 ⟨raw, hraw, hfold⟩⟩

/-- How a source is read: its tokens, the tokens with the lists folded, their parts, and the nodes
of these. -/
structure Reading (c : Compiler) (source : String) (raw ts : List Token) (ps : List Part)
    (ns : List Node) : Prop where
  tiled : Token.Tiled c.builtins 0 source.toList raw
  folds : Token.Folds source none raw ts
  derives : Derives .expr ts ps
  yields : Yields c.context ps ns

/-- A source is parsed exactly if it has a reading. -/
lemma parse_eq_ok_iff_reading {source : String} {ns : List Node} :
    c.parse source = .ok ns ↔ ∃ raw ts ps, Reading c source raw ts ps ns := by
  constructor
  · intro h
    obtain ⟨ts, hts⟩ := exists_tokens_of_parse h
    obtain ⟨ps, hderives, hyields⟩ := (parse_eq_ok_iff hts).1 h
    obtain ⟨raw, hraw, hfold⟩ := tokens_eq_ok_iff.1 hts
    exact ⟨raw, ts, ps, Token.ofSource_eq_ok_iff_tiled.1 hraw, Token.foldFrom_eq_ok_iff.1 hfold,
      hderives, hyields⟩
  · rintro ⟨raw, ts, ps, h⟩
    have hts : c.tokens source = .ok ts := tokens_eq_ok_iff.2
      ⟨raw, Token.ofSource_eq_ok_iff_tiled.2 h.tiled, Token.foldFrom_eq_ok_iff.2 h.folds⟩
    exact (parse_eq_ok_iff hts).2 ⟨ps, h.derives, h.yields⟩

variable {q q₁ q₂ : String} {raw ts : List Token} {ps : List Part} {ns ns₁ ns₂ : List Node}

/-- No source that is parsed ends with a connective. -/
lemma Reading.getLast_ne_connective (h : Reading c q raw ts ps ns) :
    ∀ t ∈ raw.getLast?, t.group ≠ .connective := fun t ht hg =>
  h.derives.ends_ne_connective.2 t (h.folds.getLast_connective ht hg) hg

/-- No source that is parsed begins with a connective. -/
lemma Reading.head_ne_connective (h : Reading c q raw ts ps ns) {k : Kind}
    (hk : k ∈ [Kind.and, .or]) : q.toList.head? ≠ k.symbol.toList.head? := by
  intro hhead
  have htiled := h.tiled
  cases hq : q.toList with
  | nil =>
    rw [hq] at hhead
    simp only [List.mem_cons, List.not_mem_nil, or_false] at hk
    rcases hk with rfl | rfl <;> cases hhead
  | cons d ys =>
    rw [hq] at hhead htiled
    obtain ⟨t, ht, hg⟩ := htiled.head_connective hk hhead
    exact h.derives.ends_ne_connective.1 t (h.folds.head_connective ht hg) hg

/-- A filter in parentheses has the nodes of the filter between the parentheses. -/
lemma parse_parens (h : c.parse q = .ok ns) :
    c.parse ("(" ++ q ++ ")") = .ok (.leftParen :: (ns ++ [.rightParen])) := by
  obtain ⟨raw, ts, ps, hq⟩ := parse_eq_ok_iff_reading.1 h
  let opening : Token := .plain .leftParen ⟨0, 1⟩ "("
  let closing : Token := .plain .rightParen ⟨1 + q.toList.length, 1⟩ ")"
  refine parse_eq_ok_iff_reading.2
    ⟨opening :: (raw.map (Token.shift 1) ++ [closing]),
      opening :: (ts.map (Token.shift 1) ++ [closing]),
      .leftParen :: (ps.map (Part.shift 1) ++ [.rightParen]), ?_, ?_, ?_, ?_⟩
  · have hclosing : Token.Tiled c.builtins (1 + q.toList.length) [')'] [closing] :=
      .mark rfl (.delimiter (by decide)) (.finish _)
    have hinner := (hq.tiled.shift 1).append (d := ')') (by decide) ?_ (by simpa using hclosing)
    · have hopening : Token.Tiled c.builtins 0 ('(' :: (q.toList ++ [')'])) _ :=
        .mark (j := .leftParen) rfl (.delimiter (by decide)) hinner
      rw [String.toList_append, String.toList_append]
      exact hopening
    · exact Token.forall_getLast?_shift hq.getLast_ne_connective
  · have hinner := hq.folds.shift hq.tiled.scanned "(" ")"
    have hclosing : Token.Folds ("(" ++ q ++ ")") none [closing] [closing] :=
      .keep (by simp [closing, Token.plain, Kind.group])
        (by simp [closing, Token.plain, Kind.group]) .done
    exact .keep (by decide) (by decide) (hinner.append hclosing)
  · exact .single (.parens rfl (hq.derives.shift 1) rfl)
  · exact .cons rfl (List.rel_append (hq.yields.shift 1) (.cons rfl .nil))

/-- Two filters with a connective between them have the nodes of both, with that of the connective
between them. -/
lemma parse_connect {k : Kind} (hk : k ∈ [Kind.and, .or]) (h₁ : c.parse q₁ = .ok ns₁)
    (h₂ : c.parse q₂ = .ok ns₂) :
    c.parse (q₁ ++ k.symbol ++ q₂) = .ok (ns₁ ++ .connective k :: ns₂) := by
  obtain ⟨raw₁, ts₁, ps₁, hq₁⟩ := parse_eq_ok_iff_reading.1 h₁
  obtain ⟨raw₂, ts₂, ps₂, hq₂⟩ := parse_eq_ok_iff_reading.1 h₂
  obtain ⟨hgroup, d, hd, hseam⟩ : k.group = .connective ∧ ∃ d, k.symbol.toList = [d] ∧
      Lexeme.isSeam d = true := by
    simp only [List.mem_cons, List.not_mem_nil, or_false] at hk
    rcases hk with rfl | rfl
    · exact ⟨rfl, '&', rfl, rfl⟩
    · exact ⟨rfl, '|', rfl, rfl⟩
  let n := q₁.toList.length
  let joint : Token := .plain k ⟨n, 1⟩ k.symbol
  refine parse_eq_ok_iff_reading.2
    ⟨raw₁ ++ joint :: raw₂.map (Token.shift (n + 1)),
      ts₁ ++ joint :: ts₂.map (Token.shift (n + 1)),
      ps₁ ++ .connective k :: ps₂.map (Part.shift (n + 1)), ?_, ?_, ?_, ?_⟩
  · have hright := hq₂.tiled.shift (n + 1)
    rw [Nat.zero_add] at hright
    have hjoint := hright.mark hd (.connective hk (hq₂.head_ne_connective hk))
    have hall := hq₁.tiled.append hseam hq₁.getLast_ne_connective (by simpa using hjoint)
    simpa [hd] using hall
  · have hlength : (q₁ ++ k.symbol).toList.length = n + 1 := by
      rw [String.toList_append, hd, List.length_append, List.length_singleton]
    have hleft := hq₁.folds.extend hq₁.tiled.scanned (k.symbol ++ q₂)
    have hright := hq₂.folds.shift hq₂.tiled.scanned (q₁ ++ k.symbol) ""
    rw [← String.append_assoc] at hleft
    rw [hlength, String.append_empty, Option.map_none] at hright
    exact hleft.append (.keep (by simp [joint, Token.plain, hgroup])
      (by simp [joint, Token.plain, hgroup]) hright)
  · exact hq₁.derives.connect hgroup (hq₂.derives.shift _)
  · exact List.rel_append hq₁.yields (.cons rfl (hq₂.yields.shift _))

/-! ## Compiling -/

variable {S₁ S₂ : String} {sink sink₁ sink₂ : Sink}

/-- A filter in parentheses is compiled to the SQL of the filter in parentheses. -/
lemma compileInto_parens {C : Tree Condition .disj} (h : c.parse q = .ok (C.nodes c.dialect))
    (hfill : (C.template c.dialect).fill sink = (S₁, sink₁)) :
    c.parse ("(" ++ q ++ ")") = .ok ((Tree.group C).nodes c.dialect) ∧
      ((Tree.group C).template c.dialect).fill sink = ("(" ++ S₁ ++ ")", sink₁) := by
  refine ⟨parse_parens h, ?_⟩
  simp [Tree.template, Template.fill, Template.fill_append, hfill, String.append_assoc]

/-- Two filters with a connective between them are compiled to the SQL of both, with the word of
the connective between them. -/
lemma compileInto_connect {l l' : Level} {C : Tree Condition l} {D : Tree Condition l'} {k : Kind}
    {word : String} (hk : k ∈ [Kind.and, .or])
    (hword : Node.template (.connective k) = [.code word])
    (h₁ : c.parse q₁ = .ok (C.nodes c.dialect)) (h₂ : c.parse q₂ = .ok (D.nodes c.dialect))
    (hfill₁ : (C.template c.dialect).fill sink = (S₁, sink₁))
    (hfill₂ : (D.template c.dialect).fill sink₁ = (S₂, sink₂)) :
    c.compileInto (q₁ ++ k.symbol ++ q₂) sink = .ok (S₁ ++ " " ++ word ++ " " ++ S₂, sink₂) := by
  have htemplate : Node.templateOf (C.nodes c.dialect ++ .connective k :: D.nodes c.dialect) =
      C.template c.dialect ++ (Tree.separator word ++ D.template c.dialect) := by
    have hright := D.templateFrom_nodes c.dialect false []
    simp only [List.append_nil] at hright
    simp [Node.templateOf, Tree.templateFrom_nodes, Node.templateFrom, hright, hword,
      Tree.separator]
  rw [compileInto, parse_connect hk h₁ h₂]
  refine congrArg Except.ok ?_
  rw [htemplate, Template.fill_append, hfill₁, Template.fill_append]
  simp [Tree.separator, Template.fill, hfill₂, String.append_assoc]

/-- Compiling is compositional: parentheses and connectives in the source are parentheses and
connectives in the SQL, the sink is handed from one filter to the next, and the conjunction of two
filters in parentheses is what merging their fragments gives. -/
theorem compileInto_composed (h₁ : c.compileInto q₁ sink = .ok (S₁, sink₁))
    (h₂ : c.compileInto q₂ sink₁ = .ok (S₂, sink₂)) :
    c.compileInto ("(" ++ q₁ ++ ")") sink = .ok ("(" ++ S₁ ++ ")", sink₁) ∧
      c.compileInto (q₁ ++ "&" ++ q₂) sink = .ok (S₁ ++ " AND " ++ S₂, sink₂) ∧
      c.compileInto (q₁ ++ "|" ++ q₂) sink = .ok (S₁ ++ " OR " ++ S₂, sink₂) ∧
      ∃ merged, Fragment.merge ⟨S₁, sink₁.since sink⟩ ⟨S₂, sink₂.since sink₁⟩ = .ok merged ∧
        c.compileInto ("(" ++ q₁ ++ ")&(" ++ q₂ ++ ")") sink = .ok (merged.sql, sink₂) ∧
        sink₂.since sink = merged.params := by
  obtain ⟨-, C₁, -, -, hparse₁, hfill₁⟩ := compileInto_eq_ok h₁
  obtain ⟨-, C₂, -, -, hparse₂, hfill₂⟩ := compileInto_eq_ok h₂
  obtain ⟨hparens₁, hgroup₁⟩ := compileInto_parens hparse₁ hfill₁
  obtain ⟨hparens₂, hgroup₂⟩ := compileInto_parens hparse₂ hfill₂
  have hmerge := Template.merge_since (C₁.template c.dialect) (C₂.template c.dialect) sink
  rw [hfill₁, hfill₂] at hmerge
  have hboth := compileInto_connect (k := .and) (by decide) rfl hparens₁ hparens₂ hgroup₁ hgroup₂
  have hsource : "(" ++ q₁ ++ ")&(" ++ q₂ ++ ")" =
      "(" ++ q₁ ++ ")" ++ Kind.and.symbol ++ ("(" ++ q₂ ++ ")") := by
    rw [show ")&(" = ")" ++ Kind.and.symbol ++ "(" from rfl]
    simp only [String.append_assoc]
  have hsql : "(" ++ S₁ ++ ") AND (" ++ S₂ ++ ")" =
      "(" ++ S₁ ++ ")" ++ " " ++ "AND" ++ " " ++ ("(" ++ S₂ ++ ")") := by
    rw [show ") AND (" = ")" ++ " " ++ "AND" ++ " " ++ "(" from rfl]
    simp only [String.append_assoc]
  refine ⟨?_, ?_, ?_, _, hmerge, ?_, rfl⟩
  · rw [compileInto_of_nodes hparens₁, hgroup₁]
  · have hand := compileInto_connect (k := .and) (by decide) rfl hparse₁ hparse₂ hfill₁ hfill₂
    simpa [String.append_assoc, Kind.symbol] using hand
  · have hor := compileInto_connect (k := .or) (by decide) rfl hparse₁ hparse₂ hfill₁ hfill₂
    simpa [String.append_assoc, Kind.symbol] using hor
  · rw [hsource, hboth, hsql]

/-- Two filters that bind values, with a list in the second one, whose fragments are merged. -/
theorem compileInto_composed_of_list :
    ∃ S₁ S₂ sink₁ sink₂,
      (ofDialect .sqlite .empty).compileInto "a = 'x' | b" (.ofStem .default) = .ok (S₁, sink₁) ∧
      (ofDialect .sqlite .empty).compileInto "c.* @ ['y', 1]" sink₁ = .ok (S₂, sink₂) ∧
      ∃ merged, Fragment.merge ⟨S₁, sink₁.since (.ofStem .default)⟩ ⟨S₂, sink₂.since sink₁⟩ =
          .ok merged ∧
        (ofDialect .sqlite .empty).compileInto "(a = 'x' | b)&(c.* @ ['y', 1])"
          (.ofStem .default) = .ok (merged.sql, sink₂) ∧
        sink₂.since (.ofStem .default) = merged.params := by
  obtain ⟨⟨S₁, sink₁⟩, h₁⟩ : ∃ r, (ofDialect .sqlite .empty).compileInto "a = 'x' | b"
      (.ofStem .default) = .ok r := Except.exists_of_isOk (by decide +kernel)
  -- the second filter is accepted whatever the sink is
  obtain ⟨ns, hns⟩ : ∃ ns, (ofDialect .sqlite .empty).parse "c.* @ ['y', 1]" = .ok ns :=
    Except.exists_of_isOk (by decide +kernel)
  obtain ⟨⟨S₂, sink₂⟩, h₂⟩ : ∃ r, (ofDialect .sqlite .empty).compileInto "c.* @ ['y', 1]" sink₁ =
      .ok r := ⟨_, Except.bind_eq_ok_iff.2 ⟨ns, hns, rfl⟩⟩
  exact ⟨S₁, S₂, sink₁, sink₂, h₁, h₂, (compileInto_composed h₁ h₂).2.2.2⟩

end Compiler
end ContentFilter
