import ContentFilter.Compiler
import ContentFilter.Proofs.Condition.Expressions
import ContentFilter.Proofs.Outcome
import ContentFilter.Proofs.Sql.Binding
/-!
# What the match of a regular expression means

The two databases are given different texts for the match of a field against a regular expression.
Here these texts are evaluated, as the databases do it: `NULL` is neither true nor false, and only
what is true selects a node.

The two agree on a match.  They do not agree on a negated one, as they negate at different places:
PostgreSQL selects a node if no item of the field matches, SQLite if some item does not
(`Contents.selects_postgres`, `Contents.selects_sqlite`).  These are the same only if there are
items, and all of them match or none of them does (`Contents.selects_eq_iff`).
-/

namespace ContentFilter

open Sql hiding marks

/-- What the databases find in the content of a node, and how its items match. -/
structure Contents (α : Type) where
  /-- Whether a JSON path with a predicate leads to some item. -/
  pathExists : String → Bool
  /-- The items of the value that a JSON path leads to. -/
  each : String → List α
  /-- The value that a JSON path leads to, if there is one. -/
  extract : String → Option α
  /-- Whether an item matches a regular expression, perhaps without regard to case. -/
  found : Bool → String → α → Bool

namespace Sql.Expr

/-- The literal in a call of a function on the content of the node. -/
def contentArgument? (function : String) : Expr → Option String
  | .call f (.binary .comma e (.atom [.literal s])) =>
    if f = function.toList ∧ e = .content then some (String.ofList s) else none
  | _ => none

/-- The string that is bound to a placeholder. -/
def pattern? (sink : Sink) : Expr → Option String
  | .atom [.other ':', .word name] => (sink.get? (String.ofList name)).bind Scalar.string?
  | _ => none

end Sql.Expr

namespace Contents

variable {α : Type} (db : Contents α)

/-- The item that an expression is, or `NULL`, given the item of the current row if there is
one. -/
def item? (row : Option α) : Expr → Option (Option α)
  | .atom [.word w] => if w = "value".toList then row.map some else none
  | e => (e.contentArgument? "json_extract").map db.extract

/-- The outcome of a match between two expressions, or `NULL`. -/
def match? (sink : Sink) (row : Option α) (caseless : Bool) (item pattern : Expr) :
    Option (Option Bool) :=
  (db.item? row item).bind fun x => (pattern.pattern? sink).map fun s => x.map (db.found caseless s)

/-- The truth value of a condition, or `NULL`, if it is a condition on matches. -/
def truth? (sink : Sink) : Option α → Expr → Option (Option Bool)
  | row, .not e => (truth? sink row e).map (Option.map not)
  | row, .binary .regexp item pattern => db.match? sink row false item pattern
  | row, .call f (.binary .comma l r) =>
    if f = "regexp_i".toList then db.match? sink row true l r
    else ((Expr.call f (.binary .comma l r)).contentArgument? "jsonb_path_exists").map
      fun p => some (db.pathExists p)
  | _, .someRow source condition =>
    ((parse source).bind fun e => e.contentArgument? "json_each").bind fun p =>
      ((db.each p).mapM fun x => truth? sink (some x) condition).map
        fun outcomes => some (outcomes.any (· == some true))
  | _, _ => none

/-- Whether a node is selected by a text of SQL with its bindings, if that is a condition on
matches. -/
def selects? (text : String × Sink) : Option Bool :=
  (expression? text.1).bind fun e => (db.truth? text.2 none e).map (· == some true)

/-- The databases find these items at a field, and match them against a regular expression
alike. -/
structure Shows (f : FieldPath) (caseless : Bool) (pattern : String) (items : List α) : Prop where
  pathExists_eq : db.pathExists (Condition.matchPredicate f caseless pattern) =
    items.any (db.found caseless pattern)
  each_eq : f.wildcard.isSome = true → db.each (JsonPath.container f) = items
  /-- A field without a wildcard has one value at most. -/
  extract_eq : f.wildcard.isSome = false → db.extract (JsonPath.container f) = items.head? ∧
    items.length ≤ 1

end Contents

/-! ## Reading matches -/

namespace Template

variable {c : Counter} {k : Nat} {expr : Template} {x : Expr}

/-- A call on the content of the node, with its literal. -/
lemma reads_contentCall {function literal : String}
    (hmarks : codeMarks (function ++ "(n.content, ") =
      .word function.toList :: .leftParen :: (codeMarks "n.content" ++ [.binary .comma]))
    (hends : endsPlain (function ++ "(n.content, ") = true)
    (hexists : (Mark.word function.toList).isKeyword "exists" = false) :
    Reads k ((Dialect.contentCall function literal).marks c) (.call function.toList
      (.binary .comma .content (.atom [.literal literal.toList]))) := by
  have hliteral : Reads (Binary.comma.rank + 1) [.literal literal.toList]
      (.atom [.literal literal.toList]) :=
    .atom (by simp) (by simp [Mark.isPlain])
  rw [Dialect.contentCall, marks_code_cons hends, marks_literal, marks_code, hmarks,
    codeMarks_rightParen]
  simpa using ((reads_content _).binary hliteral).call hexists

/-- The match of an item in SQLite. -/
def matchExpr (k : Bool) (item pattern : Expr) : Expr :=
  if k then .call "regexp_i".toList (.binary .comma item pattern)
  else .binary .regexp item pattern

lemma reads_found (hexpr : Reads Binary.tightest (expr.marks c) x) (hvalues : expr.values = [])
    (k : Bool) (v : Scalar) :
    Reads Binary.regexp.rank (((Operator.regex false k).template .sqlite expr [.hole v]).marks c)
      (matchExpr k x (.atom (marks c [.hole v]))) := by
  have hpattern := fun j => reads_hole (c := c) j v
  cases k with
  | false =>
    have hregexp : codeMarks " REGEXP " = [.binary .regexp] := by decide
    have hmarks : ((Operator.regex false false).template .sqlite expr [.hole v]).marks c =
        expr.marks c ++ .binary .regexp :: marks c [.hole v] := by
      have hjoined := marks_joined (x := " REGEXP ") (by decide) c expr [.hole v]
      rw [hregexp, hvalues] at hjoined
      exact hjoined
    rw [hmarks]
    exact (hexpr.weaken (by decide)).binary (hpattern _)
  | true =>
    have hopen : codeMarks "regexp_i(" = [.word "regexp_i".toList, .leftParen] := by decide
    have hmarks : ((Operator.regex false true).template .sqlite expr [.hole v]).marks c =
        .word "regexp_i".toList :: .leftParen ::
          ((expr.marks c ++ .binary .comma :: marks c [.hole v]) ++ [.rightParen]) := by
      have hcall : (Operator.regex false true).template .sqlite expr [.hole v] =
          .code "regexp_i(" :: (expr ++ .code ", " :: [.hole v]) ++ [.code ")"] := by
        simp [Operator.template, Dialect.regex]
      rw [hcall, marks_enclosed (by decide), marks_joined (by decide), hopen, codeMarks_comma,
        hvalues]
      rfl
    have hitem := hexpr.weaken (by decide : Binary.comma.rank ≤ Binary.tightest)
    rw [hmarks]
    exact (hitem.binary (hpattern _)).call (by decide)

/-- The match of an item with a bound pattern in SQLite. -/
lemma reads_match (hexpr : Reads Binary.tightest (expr.marks c) x) (hvalues : expr.values = [])
    (n k : Bool) (v : Scalar) :
    Reads Binary.notRank (((Operator.regex n k).template .sqlite expr [.hole v]).marks c)
      (if n then .not (matchExpr k x (.atom (marks c [.hole v])))
        else matchExpr k x (.atom (marks c [.hole v]))) := by
  have hfound := reads_found hexpr hvalues k v
  cases n with
  | false => exact hfound.weaken (by decide)
  | true =>
    have hopen : codeMarks "NOT (" = [.not, .leftParen] := by decide
    have hmarks : ((Operator.regex true k).template .sqlite expr [.hole v]).marks c =
        .not :: .leftParen ::
          (((Operator.regex false k).template .sqlite expr [.hole v]).marks c ++
            [.rightParen]) := by
      have hnot : (Operator.regex true k).template .sqlite expr [.hole v] =
          .code "NOT (" :: (Operator.regex false k).template .sqlite expr [.hole v] ++
            [.code ")"] := rfl
      rw [hnot, marks_enclosed (by decide), hopen]
      rfl
    rw [hmarks]
    exact hfound.group.not

end Template

/-! ## The meaning of a match -/

namespace Contents

open Template

variable {α : Type} {db : Contents α} {f : FieldPath} {items : List α} {n k : Bool} {s : String}
  {sink : Sink} {row : Option α} {value : Option α} {item pattern : Expr}

lemma contentArgument?_call (function literal : String) :
    (Expr.call function.toList (.binary .comma .content
      (.atom [.literal literal.toList]))).contentArgument? function = some literal := by
  simp [Expr.contentArgument?]

lemma match?_eq (hitem : db.item? row item = some value)
    (hpattern : pattern.pattern? sink = some s) :
    db.match? sink row k item pattern = some (value.map (db.found k s)) := by
  simp [match?, hitem, hpattern]

/-- A match is the outcome for the item, negated if the match is, and `NULL` if there is no
item. -/
lemma truth?_match (hitem : db.item? row item = some value)
    (hpattern : pattern.pattern? sink = some s) (n : Bool) :
    db.truth? sink row (if n then .not (matchExpr k item pattern) else matchExpr k item pattern) =
      some (value.map fun x => n != db.found k s x) := by
  have hfound : db.truth? sink row (matchExpr k item pattern) =
      some (value.map (db.found k s)) := by
    cases k with
    | false => exact match?_eq hitem hpattern
    | true => simpa [matchExpr, truth?] using match?_eq hitem hpattern
  cases n with
  | false => simpa using hfound
  | true =>
    simp only [if_true, truth?, hfound, Option.map_some, Option.map_map]
    cases value <;> simp

lemma pattern?_hole (c : Counter) (v : Scalar) (h : sink.get? c.name = some v) :
    (Expr.atom (marks c [.hole v])).pattern? sink = v.string? := by
  simp [Expr.pattern?, h]

lemma get?_fill_single {t : Template} {v : Scalar} (h : t.values = [v]) (sink : Sink) :
    (t.fill sink).2.get? sink.counter.name = some v := by
  have hbound := Template.forall₂_get?_fill t sink
  rw [h] at hbound
  exact (List.forall₂_cons.1 hbound).1

/-- The match of a field against a regular expression. -/
abbrev matching (f : FieldPath) (n k : Bool) (s : String) : Condition :=
  .comparison (.location (.field f)) (.regex n k) (.string s)

lemma selects?_fill {d : Dialect} {e : Expr}
    (h : Reads Binary.notRank (((matching f n k s).template d).marks sink.counter) e) :
    db.selects? (((matching f n k s).template d).fill sink) =
      (db.truth? (((matching f n k s).template d).fill sink).2 none e).map (· == some true) := by
  have hreadable : Readable ((matching f n k s).template d) :=
    (formed_condition d _ (by simp [Condition.codes, Subject.codes, Location.codes,
      Operand.codes]) : Formed (fun _ => False) 0 _ 0).readable (by simp)
  rw [selects?, expression?_fill hreadable, h.parse]
  rfl

/-- The predicate of PostgreSQL is looked for in the content of the node. -/
def predicateExpr (f : FieldPath) (k : Bool) (s : String) : Expr :=
  .call "jsonb_path_exists".toList
    (.binary .comma .content (.atom [.literal (Condition.matchPredicate f k s).toList]))

lemma truth?_predicate (h : db.Shows f k s items) :
    db.truth? sink row (predicateExpr f k s) = some (some (items.any (db.found k s))) := by
  rw [predicateExpr, truth?, if_neg (by decide), contentArgument?_call, Option.map_some,
    h.pathExists_eq]

lemma reads_postgres (f : FieldPath) (n k : Bool) (s : String) (c : Counter) :
    Reads Binary.notRank (((matching f n k s).template .postgres).marks c)
      (if n then .not (predicateExpr f k s) else predicateExpr f k s) := by
  have hcall : Reads Binary.notRank (marks c (Dialect.contentCall "jsonb_path_exists"
      (Condition.matchPredicate f k s))) (predicateExpr f k s) :=
    reads_contentCall (by decide) (by decide) (by decide)
  have htemplate : (matching f n k s).template .postgres = .code (Dialect.negation n) ::
      Dialect.contentCall "jsonb_path_exists" (Condition.matchPredicate f k s) := rfl
  rw [htemplate]
  cases n with
  | false =>
    have hnone : codeMarks (Dialect.negation false) = [] := by decide
    rw [marks_code_cons (by decide), hnone]
    exact hcall
  | true =>
    have hnot : codeMarks (Dialect.negation true) = [.not] := by decide
    rw [marks_code_cons (by decide), hnot]
    exact hcall.not

/-- PostgreSQL selects a node if some item matches, or, for a negated match, if no item does. -/
theorem selects_postgres (h : db.Shows f k s items) (n : Bool) (sink : Sink) :
    db.selects? (((matching f n k s).template .postgres).fill sink) =
      some (n != items.any (db.found k s)) := by
  rw [selects?_fill (reads_postgres f n k s _)]
  cases n with
  | false => simp [truth?_predicate h]
  | true => simp [truth?, truth?_predicate h]

/-- A row of the items of a field in SQLite. -/
lemma contentArgument?_each (f : FieldPath) (c : Counter) :
    ((parse ((Dialect.each .sqlite f).marks c)).bind fun e => e.contentArgument? "json_each") =
      some (JsonPath.container f) := by
  have hcall : Reads 0 (marks c (Dialect.contentCall "json_each" (JsonPath.container f)))
      (.call "json_each".toList
        (.binary .comma .content (.atom [.literal (JsonPath.container f).toList]))) :=
    reads_contentCall (by decide) (by decide) (by decide)
  rw [Dialect.each, hcall.parse, Option.bind_some, contentArgument?_call]

lemma item?_value (db : Contents α) (x : α) :
    db.item? (some x) (.atom [.word "value".toList]) = some (some x) := by
  rw [item?, if_pos rfl, Option.map_some]

lemma item?_extract (literal : String) :
    db.item? row (.call "json_extract".toList
      (.binary .comma .content (.atom [.literal literal.toList]))) = some (db.extract literal) := by
  rw [item?, contentArgument?_call, Option.map_some]
  simp

/-- Some row satisfies a condition. -/
lemma truth?_someRow {source : List Sql.Mark} {path : String} {condition : Expr} {p : α → Bool}
    (hsource : ((parse source).bind fun e => e.contentArgument? "json_each") = some path)
    (hrow : ∀ x, db.truth? sink (some x) condition = some (some (p x))) :
    db.truth? sink row (.someRow source condition) = some (some ((db.each path).any p)) := by
  have hrows : (db.each path).mapM (fun x => some (some (p x))) =
      some ((db.each path).map fun x => some (p x)) := List.mapM_pure
  rw [truth?, hsource]
  simp [hrow, hrows, Function.comp_def]

lemma any_eq_of_length_le_one (p : α → Bool) (h : items.length ≤ 1) :
    items.any p = (items.head?.map p == some true) := by
  cases items with
  | nil => rfl
  | cons x rest =>
    obtain rfl := List.eq_nil_of_length_eq_zero (Nat.le_zero.1 (Nat.le_of_succ_le_succ h))
    simp

/-- SQLite selects a node if some item matches, or, for a negated match, if some item does not. -/
theorem selects_sqlite (h : db.Shows f k s items) (n : Bool) (sink : Sink) :
    db.selects? (((matching f n k s).template .sqlite).fill sink) =
      some (items.any fun x => n != db.found k s x) := by
  have hbound : (((matching f n k s).template .sqlite).fill sink).2.get? sink.counter.name =
      some (.string s) := get?_fill_single (Condition.values_template .sqlite _) sink
  have hpattern := pattern?_hole sink.counter (.string s) hbound
  cases hw : f.wildcard.isSome with
  | true =>
    have htemplate : (matching f n k s).template .sqlite =
        Condition.eachTemplate .sqlite f (.regex n k) (.string s) := by
      simp [Condition.template, Condition.comparisonTemplate, Condition.sqliteField, hw]
    have hvalue : Reads Binary.tightest (marks sink.counter [.code "value"])
        (.atom [.word "value".toList]) := by
      rw [marks_code]
      exact reads_code (by decide) _
    have hreads : Reads Binary.notRank (((matching f n k s).template .sqlite).marks sink.counter)
        _ := htemplate ▸ reads_eachTemplate .sqlite f (reads_match hvalue rfl n k (.string s))
    have hrow := fun x => truth?_match (k := k) (item?_value db x) hpattern n
    rw [selects?_fill hreads, truth?_someRow (contentArgument?_each f _) hrow, h.each_eq hw]
    simp
  | false =>
    have htemplate : (matching f n k s).template .sqlite = (Operator.regex n k).template .sqlite
        (Dialect.contentCall "json_extract" (JsonPath.container f)) [.hole (.string s)] := by
      simp [Condition.template, Condition.comparisonTemplate, Condition.sqliteField, hw,
        Dialect.extractText, Operand.template]
    have hvalue : Reads Binary.tightest (marks sink.counter
        (Dialect.contentCall "json_extract" (JsonPath.container f))) _ :=
      reads_contentCall (by decide) (by decide) (by decide)
    have hreads : Reads Binary.notRank (((matching f n k s).template .sqlite).marks sink.counter)
        _ := htemplate ▸ reads_match hvalue (Dialect.values_contentCall _ _) n k (.string s)
    obtain ⟨hextract, hlength⟩ := h.extract_eq hw
    rw [selects?_fill hreads, truth?_match (item?_extract _) hpattern, hextract]
    simp [any_eq_of_length_le_one _ hlength]

/-- No item matches exactly if some item does not: there is one, and all are alike. -/
lemma not_any_eq_any_not_iff (p : α → Bool) :
    (!items.any p) = items.any (fun x => !p x) ↔
      items ≠ [] ∧ ∀ x ∈ items, ∀ y ∈ items, p x = p y := by
  constructor
  · intro heq
    refine ⟨by rintro rfl; simp at heq, ?_⟩
    cases hany : items.any p with
    | false =>
      have hnone := List.any_eq_false.1 hany
      intro x hx y hy
      rw [Bool.eq_false_iff.2 (hnone x hx), Bool.eq_false_iff.2 (hnone y hy)]
    | true =>
      rw [hany] at heq
      have hall : ∀ x ∈ items, p x = true := fun x hx => by
        simpa using List.any_eq_false.1 heq.symm x hx
      intro x hx y hy
      rw [hall x hx, hall y hy]
  · rintro ⟨hne, halike⟩
    obtain ⟨z, hz⟩ := List.exists_mem_of_ne_nil _ hne
    have hp : items.any p = p z := by
      rw [Bool.eq_iff_iff, List.any_eq_true]
      exact ⟨fun ⟨x, hx, hpx⟩ => halike x hx z hz ▸ hpx, fun hpz => ⟨z, hz, hpz⟩⟩
    have hnot : items.any (fun x => !p x) = !p z := by
      rw [Bool.eq_iff_iff, List.any_eq_true]
      exact ⟨fun ⟨x, hx, hpx⟩ => halike x hx z hz ▸ hpx, fun hpz => ⟨z, hz, hpz⟩⟩
    rw [hp, hnot]

/-- The two databases select the same nodes by a match.  By a negated match they do so if and only
if there are items, and all of them match or none of them does. -/
theorem selects_eq_iff (h : db.Shows f k s items) (n : Bool) (sink sink' : Sink) :
    ∃ p q, db.selects? (((matching f n k s).template .postgres).fill sink) = some p ∧
      db.selects? (((matching f n k s).template .sqlite).fill sink') = some q ∧
      (p = q ↔ n = false ∨
        items ≠ [] ∧ ∀ x ∈ items, ∀ y ∈ items, db.found k s x = db.found k s y) := by
  refine ⟨_, _, selects_postgres h n sink, selects_sqlite h n sink', ?_⟩
  cases n with
  | false => simp
  | true => simpa using not_any_eq_any_not_iff (db.found k s)

/-- Contents in which each item is whether it matches; they are the same at every field. -/
def ofOutcomes (outcomes : List Bool) : Contents Bool where
  pathExists _ := outcomes.any id
  each _ := outcomes
  extract _ := outcomes.head?
  found _ _ := id

/-- Any outcomes are possible: many at a field with a wildcard, and else at most one. -/
lemma shows_ofOutcomes {f : FieldPath} {outcomes : List Bool} (k : Bool) (s : String)
    (h : f.wildcard.isSome = false → outcomes.length ≤ 1) :
    (ofOutcomes outcomes).Shows f k s outcomes :=
  ⟨rfl, fun _ => rfl, fun hw => ⟨rfl, h hw⟩⟩

/-- A negated match of two elements, one of which matches. -/
theorem selects_eq_iff_of_outcomes :
    (ofOutcomes [true, false]).Shows ⟨"tags", [], some .element⟩ false "x" [true, false] ∧
    ∃ p q,
      (ofOutcomes [true, false]).selects? (((matching ⟨"tags", [], some .element⟩ true false
        "x").template .postgres).fill (.ofStem .default)) = some p ∧
      (ofOutcomes [true, false]).selects? (((matching ⟨"tags", [], some .element⟩ true false
        "x").template .sqlite).fill (.ofStem .default)) = some q ∧
      (p = q ↔ true = false ∨ [true, false] ≠ [] ∧
        ∀ x ∈ [true, false], ∀ y ∈ [true, false], x = y) :=
  have hshows := shows_ofOutcomes false "x" (by simp)
  ⟨hshows, selects_eq_iff hshows true _ _⟩

end Contents

namespace Compiler

open Contents

/-- A filter that is one condition is compiled to the template of the condition. -/
lemma compileInto_eq_of_parse {c : Compiler} {query : String} {d : Dialect} {a : Condition}
    (h : c.parse query = .ok [.condition d a]) (sink : Sink) :
    c.compileInto query sink = .ok ((a.template d).fill sink) := by
  have htemplate : Node.templateOf [.condition d a] = a.template d := by
    simp [Node.templateOf, Node.templateFrom, Node.template]
  rw [compileInto, h, ← htemplate]
  rfl

/-- A filter that selects a node in SQLite and not in PostgreSQL: one element matches and one does
not. -/
theorem selects_ne_of_negated_match :
    ∃ r r', (ofDialect .postgres Table.empty).compileInto "tags.? !~ 'x'"
        (.ofStem .default) = .ok r ∧
      (ofDialect .sqlite Table.empty).compileInto "tags.? !~ 'x'"
        (.ofStem .default) = .ok r' ∧
      (ofOutcomes [true, false]).Shows ⟨"tags", [], some .element⟩ false "x" [true, false] ∧
      (ofOutcomes [true, false]).selects? r = some false ∧
      (ofOutcomes [true, false]).selects? r' = some true := by
  have hshows : (ofOutcomes [true, false]).Shows ⟨"tags", [], some .element⟩ false "x"
      [true, false] := shows_ofOutcomes _ _ (by simp)
  have hpostgres : (ofDialect .postgres Table.empty).parse "tags.? !~ 'x'" =
      .ok [.condition .postgres (matching ⟨"tags", [], some .element⟩ true false "x")] :=
    Except.eq_ok_of_toOption (by decide +kernel)
  have hsqlite : (ofDialect .sqlite Table.empty).parse "tags.? !~ 'x'" =
      .ok [.condition .sqlite (matching ⟨"tags", [], some .element⟩ true false "x")] :=
    Except.eq_ok_of_toOption (by decide +kernel)
  exact ⟨_, _, compileInto_eq_of_parse hpostgres _, compileInto_eq_of_parse hsqlite _, hshows,
    selects_postgres hshows true _, selects_sqlite hshows true _⟩

end Compiler
end ContentFilter
