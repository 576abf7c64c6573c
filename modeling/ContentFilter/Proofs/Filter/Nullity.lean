import ContentFilter.Proofs.Condition.Values
import ContentFilter.Proofs.Filter.Composition
import ContentFilter.Proofs.Filter.Ordering
import ContentFilter.Proofs.Token.Folding
/-!
# Comparing a name with null

A filter that compares a name with null is the shortest one that writes down what a name is resolved
to, and nothing else: it is accepted exactly if the name stands for a location without a wildcard,
and its SQL is the expression of the location and a test for null (`Compiler.compile_null_iff`).
An order-by statement of the same name is accepted in just the same cases and writes the same
expression (`Compiler.order_iff_compile_null`).
-/

namespace ContentFilter

open Text ContentFilter.Filter

/-! ## Comparisons of three tokens -/

/-- An equality with null is made of a location without a wildcard. -/
lemma Condition.reads_null_iff {b : Builtins} {left operator right : Token} {c : Condition}
    (hoperator : operator.kind = .operator (.compare .eq)) (hright : right.kind = .null) :
    c.Reads b left operator right ↔
      ∃ l : Location, l.Reads b left ∧ l.hasWildcard = false ∧ c = .nullity l false := by
  constructor
  · intro h
    cases h with
    | @nullity l negated _ hl hplain hk =>
      cases negated with
      | false => exact ⟨l, hl, hplain, rfl⟩
      | true =>
        rw [hoperator] at hk
        cases hk
    | pathLeft _ hvalue _ _ _ _ => simp [hright] at hvalue
    | pathRight hpath _ _ _ _ _ => simp [hright] at hpath
    | comparison _ hr _ _ _ _ _ => exact absurd hright hr.kind_ne.2
  · rintro ⟨l, hl, hplain, rfl⟩
    exact .nullity false hright hl hplain hoperator

namespace Compiler

variable {c : Compiler} {query : String}

/-- A filter of an operand, an operator and an operand is the condition that these make. -/
lemma parse_triple {left operator right : Token} {ns : List Node}
    (h : c.tokens query = .ok [left, operator, right]) (hleft : left.group = .operand)
    (hoperator : operator.group = .operator) (hright : right.group = .operand) :
    c.parse query = .ok ns ↔ ∃ condition : Condition,
      condition.Reads c.builtins left operator right ∧ ns = [.condition c.dialect condition] := by
  have hderives := Derives.single (.triple hleft hoperator hright)
  rw [parse_eq_ok_iff h]
  constructor
  · rintro ⟨ps, hps, hyields⟩
    obtain rfl := hps.parts_unique hderives
    cases hyields with
    | cons hnode htail =>
      cases htail
      rw [Part.node, Clause.node_eq, Except.map_eq_ok_iff] at hnode
      obtain ⟨condition, hcondition, rfl⟩ := hnode
      exact ⟨condition, Condition.ofTriple_eq_ok_iff.1 hcondition, rfl⟩
  · rintro ⟨condition, hreads, rfl⟩
    refine ⟨_, hderives, .cons ?_ .nil⟩
    rw [Part.node, Clause.node_eq, Clause.condition]
    exact congrArg (Except.map _) (Condition.ofTriple_eq_ok_iff.2 hreads)

end Compiler

/-! ## A name and null -/

namespace Token

open Lexeme (Name inName)

variable {b : Builtins} {ts : List Token}

/-- The tokens of an equality of a name with null. -/
def nullTokens (b : Builtins) (name : List Char) : List Token :=
  [plain (Lexeme.classify b name) ⟨0, name.length⟩ (String.ofList name),
    plain (.operator (.compare .eq)) ⟨name.length + 1, 1⟩ "=",
    plain .null ⟨name.length + 3, 4⟩ "null"]

lemma tiled_null (b : Builtins) (n : Nat) :
    Tiled b n " = null".toList
      [plain (.operator (.compare .eq)) ⟨n + 1, 1⟩ "=", plain .null ⟨n + 3, 4⟩ "null"] := by
  have hspace : isGap ' ' = true := by decide
  have hoperator : Lexeme.Begins b ['='] " null".toList (.operator (.compare .eq)) ['='] :=
    .operator (o := .compare .eq) (Lexeme.longest_of_startsGap
      (fun _ => Lexeme.not_isGap_of_isOperator) (by simp [Lexeme.StartsGap, hspace]))
  have hnull : Lexeme.Begins b "null".toList [] .null "null".toList := by
    have hname : Name "null".toList :=
      .letter (by decide) (.char (by decide) (.char (by decide) (.char (by decide) .nil)))
    exact .name hname endsName_nil
  exact .gap hspace (.lexeme hoperator (.gap hspace (.lexeme hnull (.finish _))))

/-- An equality of a name with null is cut into three tokens if the name is one. -/
lemma ofSource_null_iff {source : String} (hletter : source.toList.head?.any isLetter = true)
    (hname : ∀ c ∈ source.toList, inName c = true) :
    ofSource b (source ++ " = null") = .ok ts ↔
      Name source.toList ∧ ts = nullTokens b source.toList := by
  rw [ofSource_eq_ok_iff_tiled, String.toList_append, tiled_name_append_iff hletter hname
    (Lexeme.endsName_of_startsGap (by simp [Lexeme.StartsGap, isGap, isBlank]))]
  refine and_congr_right fun _ => ⟨?_, ?_⟩
  · rintro ⟨us, rfl, htail⟩
    rw [htail.unique (tiled_null b _), nullTokens, Nat.zero_add]
  · rintro rfl
    refine ⟨_, rfl, ?_⟩
    rw [Nat.zero_add]
    exact tiled_null b _

end Token

namespace Compiler

variable {c : Compiler} {name : String}

lemma tokens_null_iff {ts : List Token} (hletter : name.toList.head?.any isLetter = true)
    (hname : ∀ ch ∈ name.toList, Lexeme.inName ch = true) :
    c.tokens (name ++ " = null") = .ok ts ↔
      Lexeme.Name name.toList ∧ ts = Token.nullTokens c.builtins name.toList := by
  have hfold : Token.foldBrackets (name ++ " = null") (Token.nullTokens c.builtins name.toList) =
      .ok (Token.nullTokens c.builtins name.toList) := by
    refine Token.foldFrom_eq_ok_iff.2 (Token.folds_self fun u hu => ?_)
    simp only [Token.nullTokens, List.mem_cons, List.not_mem_nil, or_false] at hu
    rcases hu with rfl | rfl | rfl
    · simp [Token.plain, Lexeme.group_classify]
    · simp [Token.plain, Kind.group]
    · simp [Token.plain, Kind.group]
  simp only [tokens_eq_ok_iff, Token.ofSource_null_iff hletter hname]
  constructor
  · rintro ⟨raw, ⟨hname, rfl⟩, hts⟩
    exact ⟨hname, Except.ok.inj (hts.symm.trans hfold)⟩
  · rintro ⟨hname, rfl⟩
    exact ⟨_, ⟨hname, rfl⟩, hfold⟩

lemma compile_eq_ok_iff {query : String} {fragment : Fragment} :
    c.compile query = .ok fragment ↔ ∃ ns, c.parse query = .ok ns ∧
      fragment = ⟨((Node.templateOf ns).fill (.ofStem c.stem)).1,
        ((Node.templateOf ns).fill (.ofStem c.stem)).2.values⟩ := by
  simp only [compile, compileInto, Except.bind_eq_ok_iff]
  constructor
  · rintro ⟨_, ⟨ns, hns, hfill⟩, h⟩
    obtain rfl := Except.ok.inj hfill
    exact ⟨ns, hns, (Except.ok.inj h).symm⟩
  · rintro ⟨ns, hns, rfl⟩
    exact ⟨_, ⟨ns, hns, rfl⟩, rfl⟩

/-- The nodes of an equality of a name with null. -/
lemma parse_null_iff {ns : List Node} (hletter : name.toList.head?.any isLetter = true)
    (hname : ∀ ch ∈ name.toList, Lexeme.inName ch = true) :
    c.parse (name ++ " = null") = .ok ns ↔ ∃ l : Location, l.NamedBy c.builtins name.toList ∧
      ns = [.condition c.dialect (.nullity l false)] := by
  have htokens : ∀ {ts}, c.tokens (name ++ " = null") = .ok ts ↔ _ :=
    tokens_null_iff hletter hname
  constructor
  · intro h
    obtain ⟨ts, hts⟩ := exists_tokens_of_parse h
    obtain ⟨hname, rfl⟩ := htokens.1 hts
    obtain ⟨condition, hreads, rfl⟩ :=
      (parse_triple hts (Lexeme.group_classify _ _) rfl rfl).1 h
    obtain ⟨l, hl, hplain, rfl⟩ := (Condition.reads_null_iff rfl rfl).1 hreads
    exact ⟨l, ⟨hname, hl, hplain⟩, rfl⟩
  · rintro ⟨l, ⟨hname, hl, hplain⟩, rfl⟩
    exact (parse_triple (htokens.2 ⟨hname, rfl⟩) (Lexeme.group_classify _ _) rfl rfl).2
      ⟨_, (Condition.reads_null_iff rfl rfl).2 ⟨l, hl, hplain, rfl⟩, rfl⟩

/-- A test for null binds nothing. -/
lemma fill_nullity (d : Dialect) (l : Location) (sink : Sink) :
    (Node.templateOf [.condition d (.nullity l false)]).fill sink =
      ((l.template d).text ++ " IS NULL", sink) := by
  have htemplate : Node.templateOf [.condition d (.nullity l false)] =
      l.template d ++ [.code " IS NULL"] := by
    simp [Node.templateOf, Node.templateFrom, Node.template, Condition.template, Dialect.negation]
  rw [htemplate, Template.fill_of_values_eq_nil (by simp), Template.text_append]
  simp [Template.text]

/-- A name is compared with null exactly if it stands for a location without a wildcard; the SQL is
the expression of the location with a test for null, and nothing is bound. -/
theorem compile_null_iff {fragment : Fragment} (hletter : name.toList.head?.any isLetter = true)
    (hname : ∀ ch ∈ name.toList, Lexeme.inName ch = true) :
    c.compile (name ++ " = null") = .ok fragment ↔
      ∃ l : Location, l.NamedBy c.builtins name.toList ∧
        fragment = ⟨(l.template c.dialect).text ++ " IS NULL", .empty⟩ := by
  simp only [compile_eq_ok_iff, parse_null_iff hletter hname]
  constructor
  · rintro ⟨ns, ⟨l, hl, rfl⟩, rfl⟩
    refine ⟨l, hl, ?_⟩
    rw [fill_nullity]
    rfl
  · rintro ⟨l, hl, rfl⟩
    refine ⟨_, ⟨l, hl, rfl⟩, ?_⟩
    rw [fill_nullity]
    rfl

/-- A known name is ordered by exactly if it stands for a location without a wildcard; the SQL is
the expression of the location and the ascending order. -/
lemma order_name_eq_ok_iff {sql : String} (hname : OrderBy.IsName name.toList) :
    c.order name = .ok sql ↔ ∃ l : Location, l.NamedBy c.builtins name.toList ∧
      sql = (l.template c.dialect).text ++ " ASC" := by
  have horder : c.order name =
      (OrderBy.resolve c.dialect c.builtins name.toList).map (· ++ " ASC") := by
    have hcompile := OrderBy.compile_name (d := c.dialect) (b := c.builtins) hname .nothing
    rw [List.append_nil, String.ofList_toList] at hcompile
    exact hcompile
  rw [horder, Except.map_eq_ok_iff]
  simp only [OrderBy.resolve_name_eq_ok_iff hname.head_isLetter hname.inName]
  constructor
  · rintro ⟨_, ⟨l, hl, rfl⟩, rfl⟩
    exact ⟨l, hl, rfl⟩
  · rintro ⟨l, hl, rfl⟩
    exact ⟨_, ⟨l, hl, rfl⟩, rfl⟩

/-- An order-by statement of one name and a filter that compares this name with null, with a name of
ASCII letters, digits, underscores, dots and hyphens that begins with a letter: both are written with
the same expression, or both are refused.  They are accepted exactly if the name is one to filters
and is not reserved. -/
theorem order_iff_compile_null (c : Compiler) {name : String}
    (hletter : name.toList.head?.any Char.isAlpha = true)
    (hname : ∀ ch ∈ name.toList, ch.isAlphanum = true ∨ ch ∈ ['_', '.', '-']) :
    (∀ expr, c.order name = .ok (expr ++ " ASC") ↔
        c.compile (name ++ " = null") = .ok ⟨expr ++ " IS NULL", .empty⟩) ∧
      ((∃ sql, c.order name = .ok sql) ↔
        ∃ fragment, c.compile (name ++ " = null") = .ok fragment) ∧
      ((∃ sql, c.order name = .ok sql) ↔
        Lexeme.Name name.toList ∧ Builtins.isReserved name = false) := by
  have hknown := OrderBy.isName_of_ascii hletter hname
  have horder : ∀ {sql}, c.order name = .ok sql ↔ _ := order_name_eq_ok_iff hknown
  have hcompile : ∀ {fragment}, c.compile (name ++ " = null") = .ok fragment ↔ _ :=
    compile_null_iff hknown.head_isLetter hknown.inName
  have haccepted : (∃ sql, c.order name = .ok sql) ↔
      ∃ l : Location, l.NamedBy c.builtins name.toList :=
    ⟨fun ⟨_, hsql⟩ => (horder.1 hsql).imp fun _ => And.left,
      fun ⟨l, hl⟩ => ⟨_, horder.2 ⟨l, hl, rfl⟩⟩⟩
  refine ⟨fun expr => ?_, ?_, ?_⟩
  · rw [horder, hcompile]
    simp only [String.append_left_inj, Fragment.mk.injEq, and_true]
  · rw [haccepted]
    exact ⟨fun ⟨l, hl⟩ => ⟨_, hcompile.2 ⟨l, hl, rfl⟩⟩,
      fun ⟨_, hfragment⟩ => (hcompile.1 hfragment).imp fun _ => And.left⟩
  · have hclass := @Lexeme.isReserved_eq_false_iff name.toList c.builtins
    rw [String.ofList_toList] at hclass
    rw [haccepted, Location.exists_namedBy_iff, hclass, or_comm]
    exact and_congr_right fun _ => or_congr_left (and_iff_left hknown.not_isWildcard)

/-- A field with a segment, which is accepted in both places, and a reserved name, which is refused in
both. -/
theorem order_iff_compile_null_of_two_names :
    let c : Compiler := ofDialect .postgres .empty
    c.order "title.de" = .ok "n.content->'title'->'value'->>'de' ASC" ∧
      c.compile "title.de = null" = .ok ⟨"n.content->'title'->'value'->>'de' IS NULL", .empty⟩ ∧
      (¬∃ sql, c.order "path.de" = .ok sql) ∧
      ¬∃ fragment, c.compile "path.de = null" = .ok fragment := by
  intro c
  have hwritten : c.order "title.de" = .ok "n.content->'title'->'value'->>'de' ASC" :=
    Except.eq_ok_of_toOption (by decide +kernel)
  have hname : ∀ name ∈ ["title.de", "path.de"], ∀ ch ∈ name.toList,
      ch.isAlphanum = true ∨ ch ∈ ['_', '.', '-'] := by
    have hall : ["title.de", "path.de"].all fun name => name.toList.all fun ch =>
        ch.isAlphanum || ['_', '.', '-'].contains ch := by decide
    intro name hmem ch hch
    simpa using List.all_eq_true.1 (List.all_eq_true.1 hall name hmem) ch hch
  obtain ⟨hexpr, -, -⟩ := @order_iff_compile_null c "title.de" (by decide) (hname _ (by simp))
  obtain ⟨-, hboth, hfree⟩ := @order_iff_compile_null c "path.de" (by decide) (hname _ (by simp))
  have hrefused : ¬∃ sql, c.order "path.de" = .ok sql := fun horder => by
    have hreserved : Builtins.isReserved "path.de" = true := by decide
    rw [(hfree.1 horder).2] at hreserved
    cases hreserved
  exact ⟨hwritten, (hexpr "n.content->'title'->'value'->>'de'").1 hwritten, hrefused,
    fun hcompile => hrefused (hboth.2 hcompile)⟩

end Compiler
end ContentFilter
