import ContentFilter.Proofs.Condition.Expressions
/-!
# What the operators of a condition are applied to

PostgreSQL tests a condition by a JSON path predicate, or by an operator between two sides.  The
sides are put into the text as they are, without parentheses, so that it is for the precedence of
the operators to keep them together.

It does so for all operators and all sides but one combination: the matches of regular expressions
have the rank of the arrows, and all of them associate to the left.  With a field on its right
such an operator is applied to the content of the node alone, and the arrows of the field are
applied to the outcome (`Condition.reads_application`).
-/

namespace ContentFilter

open Sql hiding marks

/-- An operator between two sides. -/
structure Application where
  left : Template
  operator : Operator
  right : Template
deriving DecidableEq, Repr

/-- A match of a regular expression with a field on its right. -/
def Application.Detached (a : Application) : Prop :=
  (∃ n k, a.operator = .regex n k) ∧ ∃ g, a.right = Dialect.extractText .postgres g

/-- The conditions that are joined by `AND`. -/
def Sql.Expr.conjuncts : Expr → List Expr
  | .binary .and l r => l.conjuncts ++ r.conjuncts
  | e => [e]

/-- The match of a regular expression by an operator. -/
def Sql.Expr.isMatch : Expr → Bool
  | .binary (.operator (.regex _ _)) _ _ => true
  | _ => false

/-- The conditions that are tested: those of the rows, if a subquery looks for a row. -/
def Sql.Expr.tested : Expr → List Expr
  | .someRow _ condition => condition.conjuncts
  | e => [e]

namespace Condition

/-- The operator that PostgreSQL tests a field by, unless it uses a JSON path predicate.  A field
with a wildcard is tested item by item. -/
def fieldApplication? (f : FieldPath) (o : Operator) (right : Operand) : Option Application :=
  match o, right with
  | .compare _, .string _ | .compare _, .number _ | .compare _, .boolean _ => none
  | .regex _ _, .string _ => none
  | o, .now =>
    some ⟨.code "(" :: Dialect.extractText .postgres f ++ [.code ")::timestamptz"],
      .compare (o.relation?.getD .eq), Operand.now.template .postgres⟩
  | .compare r, .location (.field g) =>
    some ⟨Dialect.extractJson .postgres f, .compare r, Dialect.extractJson .postgres g⟩
  | o, right =>
    some ⟨if f.wildcard.isSome then Dialect.eachItem .postgres
      else Dialect.extractText .postgres f, o, right.template .postgres⟩

/-- The operator that PostgreSQL tests a condition by. -/
def application? : Condition → Option Application
  | comparison (.location (.field f)) o right => fieldApplication? f o right
  | comparison (.location (.column x)) o right => some ⟨[.code x], o, right.template .postgres⟩
  | comparison (.number n) o right => some ⟨[.code n], o, right.template .postgres⟩
  | comparison (.boolean b) o right =>
    some ⟨[.code (Scalar.ofBool b)], o, right.template .postgres⟩
  | urlPath k value _ =>
    some ⟨[.code "up.path"], k.operator?.getD (.compare .eq), value.template .postgres⟩
  | nullity _ _ | presence _ => none

/-- The right side of a condition. -/
def operand? : Condition → Option Operand
  | comparison _ _ right => some right
  | urlPath _ value _ => some value
  | nullity _ _ | presence _ => none

end Condition

namespace Template

variable {c : Counter} {j k : Nat} {t expr right : Template} {l r e : Expr} {o : Operator}
  {v : Operand}

/-! ## Conditions on the path -/

/-- The marks of a name that stands in another one. -/
def qualifiedMarks (outer name : String) : List Sql.Mark :=
  [.word outer.toList, .other '.', .word name.toList]

lemma reads_qualifiedMarks (outer name : String) (k : Nat) :
    Reads k (qualifiedMarks outer name) (.atom (qualifiedMarks outer name)) :=
  .atom (by simp [qualifiedMarks]) (by simp [qualifiedMarks, Mark.isPlain])

/-- The marks of the table of paths with its alias. -/
def pathsMarks : List Sql.Mark := qualifiedMarks "cms" "urlpaths" ++ [.word "up".toList]

/-- The marks of the condition that a path is one of the node and active. -/
def activeMarks : List Sql.Mark :=
  qualifiedMarks "up" "node" ++ .binary (.operator (.compare .eq)) :: qualifiedMarks "n" "node" ++
    .binary .and :: (qualifiedMarks "up" "inactive" ++ [.word "IS".toList, .word "NULL".toList])

lemma reads_activeMarks : ∃ e, Reads Binary.and.rank activeMarks e ∧
    ∀ x ∈ e.conjuncts, x.isMatch = false := by
  have hnode := Reads.operator (o := .compare .eq) (reads_qualifiedMarks "up" "node" _)
    (reads_qualifiedMarks "n" "node" _)
  have hand := hnode.weaken (by decide : Binary.and.rank ≤ _)
  have hnull : Reads (Binary.and.rank + 1)
      (qualifiedMarks "up" "inactive" ++ [.word "IS".toList, .word "NULL".toList]) _ :=
    .atom (by simp [qualifiedMarks]) (by simp [qualifiedMarks, Mark.isPlain])
  refine ⟨_, hand.binary hnull, ?_⟩
  simp [Expr.conjuncts, Expr.isMatch]

/-- The restriction to a locale joins the conditions before it, and is no match of a regular
expression. -/
lemma reads_locale {ms : List Sql.Mark} (h : Reads Binary.and.rank ms e) (locale : Option String) :
    ∃ e', Reads Binary.and.rank (ms ++ (Condition.localeTemplate locale).marks c) e' ∧
      ∃ vs, e'.conjuncts = e.conjuncts ++ vs ∧ ∀ x ∈ vs, x.isMatch = false := by
  cases locale with
  | none => exact ⟨e, by simpa [Condition.localeTemplate] using h, [], by simp⟩
  | some l =>
    have hmarks : (Condition.localeTemplate (some l)).marks c =
        .binary .and :: (qualifiedMarks "up" "locale" ++
          .binary (.operator (.compare .eq)) :: marks c [.hole (.string l)]) := by
      have hcode : codeMarks " AND up.locale = " = .binary .and ::
          (qualifiedMarks "up" "locale" ++ [.binary (.operator (.compare .eq))]) := by decide +kernel
      rw [Condition.localeTemplate, marks_code_cons (by decide), hcode]
      simp
    have hlocale := Reads.operator (o := .compare .eq) (reads_qualifiedMarks "up" "locale" _)
      (reads_hole (c := c) _ (.string l))
    have hboth := h.binary hlocale
    rw [hmarks]
    exact ⟨_, hboth, _, Expr.conjuncts.eq_1 _ _, by simp [Expr.conjuncts, Expr.isMatch]⟩

/-- The operator of a condition on the path is tested beside conditions that are no matches of
regular expressions. -/
lemma reads_urlPathTemplate (kind : Kind) (v : Operand) (locale : Option String)
    (h : Reads Binary.notRank (((kind.operator?.getD (.compare .eq)).template .postgres
      [.code "up.path"] (v.template .postgres)).marks c) e) :
    ∃ source condition, Reads j ((Condition.urlPathTemplate .postgres kind v locale).marks c)
        (.someRow source condition) ∧
      ∃ us vs, condition.conjuncts = us ++ e.conjuncts ++ vs ∧
        ∀ x ∈ us ++ vs, x.isMatch = false := by
  obtain ⟨active, hactive, hus⟩ := reads_activeMarks
  set X := (kind.operator?.getD (.compare .eq)).template .postgres [.code "up.path"]
    (v.template .postgres) with hX
  obtain ⟨condition, hcondition, vs, hconj, hvs⟩ := reads_locale (c := c.advance X.values.length)
    (hactive.binary h) locale
  refine ⟨pathsMarks, condition, ?_, active.conjuncts, vs, hconj, ?_⟩
  · have hmarks : (Condition.urlPathTemplate .postgres kind v locale).marks c =
        .word "EXISTS".toList :: .leftParen :: ((.word "SELECT".toList :: .word ['1'] ::
          .word "FROM".toList :: (pathsMarks ++ .word "WHERE".toList ::
            (activeMarks ++ .binary .and :: X.marks c ++
              marks (c.advance X.values.length) (Condition.localeTemplate locale)))) ++
              [.rightParen]) := by
      have hopen : codeMarks ("EXISTS (SELECT 1 FROM " ++ Dialect.table .postgres "urlpaths" ++
          " up WHERE up.node = n.node AND up.inactive IS NULL AND ") =
          .word "EXISTS".toList :: .leftParen :: .word "SELECT".toList :: .word ['1'] ::
            .word "FROM".toList :: (pathsMarks ++ .word "WHERE".toList ::
              (activeMarks ++ [.binary .and])) := by decide +kernel
      have hlocale : (X ++ Condition.localeTemplate locale).marks c =
          X.marks c ++ marks (c.advance X.values.length) (Condition.localeTemplate locale) := by
        cases locale with
        | none => simp [Condition.localeTemplate]
        | some l => rw [Condition.localeTemplate, marks_append_code (by decide)]
      rw [Condition.urlPathTemplate, List.cons_append, marks_enclosed (by decide +kernel), hopen,
        hlocale]
      simp
    rw [hmarks]
    exact .someRow (by decide) (by decide) (by decide) (by decide) (by decide) (by decide)
      hcondition
  · intro x hx
    rcases List.mem_append.1 hx with hx | hx
    · exact hus x hx
    · exact hvs x hx

end Template

/-! ## Operators with their sides -/

namespace Application

open Template

/-- What the text of an operator with its sides is, given what its sides are: an arrow is applied
last if the operator is detached from its right side. -/
inductive Applies (a : Application) (l r : Expr) : Expr → Prop
  | whole : ¬a.Detached → Applies a l r (.binary (.operator a.operator) l r)
  | detached {symbol : String} {x y : Expr} :
      a.Detached → Applies a l r (.binary (.arrow symbol) x y)

variable {a : Application} {c : Counter} {l r e : Expr} {o : Operator} {v : Operand}
  {expr : Template}

lemma Applies.conjuncts_eq (h : a.Applies l r e) : e.conjuncts = [e] := by
  cases h <;> rfl

lemma Applies.tested_eq (h : a.Applies l r e) : e.tested = [e] := by
  cases h <;> rfl

/-- Among conditions that are no matches of regular expressions, the operator is found applied to
its sides unless it is detached. -/
lemma Applies.mem_iff (h : a.Applies l r e) {us vs : List Expr}
    (hothers : ∀ x ∈ us ++ vs, x.isMatch = false) :
    .binary (.operator a.operator) l r ∈ us ++ [e] ++ vs ↔ ¬a.Detached := by
  cases h with
  | whole hwhole => simp [hwhole]
  | detached hdetached =>
    obtain ⟨n, k, ho⟩ := hdetached.1
    have hmem : .binary (.operator a.operator) l r ∉ us ++ vs := fun hmem => by
      have hmatch := hothers _ hmem
      simp [ho, Expr.isMatch] at hmatch
    simp only [List.mem_append, not_or] at hmem
    simp [hdetached, hmem]

lemma Applies.mem_singleton_iff (h : a.Applies l r e) :
    .binary (.operator a.operator) l r ∈ [e] ↔ ¬a.Detached := by
  have hnone : ∀ x ∈ ([] ++ [] : List Expr), x.isMatch = false := by simp
  simpa using h.mem_iff hnone

/-- No operand but a field is written with arrows. -/
lemma template_ne_extractText (hfield : ∀ g, v ≠ .location (.field g)) (g : FieldPath) :
    v.template .postgres ≠ Dialect.extractText .postgres g := by
  cases v with
  | location l =>
    cases l with
    | field f => exact absurd rfl (hfield f)
    | column x =>
      simp [Operand.template, Location.template, Dialect.extractText, FieldPath.keys,
        Dialect.arrows]
  | _ => simp [Operand.template, Dialect.extractText, FieldPath.keys, Dialect.arrows]

lemma marks_beside (hvalues : expr.values = []) (o : Operator) (right : Template) :
    (o.template .postgres expr right).marks c =
      expr.marks c ++ (operatorMarks o ++ right.marks c) := by
  rw [marks_operator, hvalues]
  rfl

/-- An operator is applied to its sides if what is on its right binds tighter. -/
lemma applies_whole {right : Template} (hexpr : Reads Binary.arrowRank (expr.marks c) l)
    (hvalues : expr.values = []) (hright : Reads ((Binary.operator o).rank + 1) (right.marks c) r)
    (hwhole : ¬(Application.mk expr o right).Detached) :
    ∃ e, Reads Binary.notRank ((o.template .postgres expr right).marks c) e ∧
      (Application.mk expr o right).Applies l r e := by
  rw [marks_beside hvalues]
  exact ⟨_, hexpr.operator hright, .whole hwhole⟩

/-- The arrows of a field go on from the match of a regular expression before it. -/
lemma applies_detached {n k : Bool} (hexpr : Reads Binary.arrowRank (expr.marks c) l)
    (hvalues : expr.values = []) (g : FieldPath) (r : Expr) :
    ∃ e, Reads Binary.notRank (((Operator.regex n k).template .postgres expr
        (Dialect.extractText .postgres g)).marks c) e ∧
      (Application.mk expr (.regex n k) (Dialect.extractText .postgres g)).Applies l r e := by
  have hexpr : Reads (Binary.operator (.regex n k)).rank (expr.marks c) l := hexpr
  have hmatch := hexpr.binary (reads_content _)
  have hall := (hmatch.along "->>" g.keys).weaken (by decide : Binary.notRank ≤ Binary.arrowRank)
  obtain ⟨symbol, x, y, heq⟩ := Expr.exists_along_eq
    (by simp [FieldPath.keys] : g.keys ≠ []) "->>" (.binary (.operator (.regex n k)) l .content)
  rw [heq] at hall
  rw [marks_beside hvalues, Dialect.extractText, marks_code_cons (by decide),
    marks_arrows (.inr rfl)]
  exact ⟨_, by simpa [operatorMarks] using hall, .detached ⟨⟨n, k, rfl⟩, g, rfl⟩⟩

/-- An operator is applied to its sides, unless it is detached from the right one. -/
lemma exists_applies (hexpr : Reads Binary.arrowRank (expr.marks c) l) (hvalues : expr.values = [])
    (hcodes : ∀ x ∈ v.codes, Tight x) (hlist : v ≠ .list []) (o : Operator) :
    ∃ r e, Reads 0 ((v.template .postgres).marks c) r ∧
      Reads Binary.notRank ((o.template .postgres expr (v.template .postgres)).marks c) e ∧
      (Application.mk expr o (v.template .postgres)).Applies l r e := by
  by_cases hfield : ∃ g, v = .location (.field g)
  · obtain ⟨g, rfl⟩ := hfield
    have hright := reads_extractText (c := c) g
    have hweak := hright.weaken (Nat.zero_le _)
    by_cases hregex : ∃ n k, o = .regex n k
    · obtain ⟨n, k, rfl⟩ := hregex
      obtain ⟨e, he, happlies⟩ := applies_detached hexpr hvalues g _
      exact ⟨_, e, hweak, he, happlies⟩
    · have hrank : (Binary.operator o).rank + 1 ≤ Binary.arrowRank := by
        cases o <;> simp_all [Binary.rank, Binary.arrowRank]
      obtain ⟨e, he, happlies⟩ := applies_whole hexpr hvalues (hright.weaken hrank)
        fun hdetached => hregex hdetached.1
      exact ⟨_, e, hweak, he, happlies⟩
  · have hfield : ∀ g, v ≠ .location (.field g) := fun g hg => hfield ⟨g, hg⟩
    obtain ⟨r, hright⟩ := exists_reads_operand (c := c) hcodes hlist hfield
    obtain ⟨e, he, happlies⟩ := applies_whole hexpr hvalues
      (hright.weaken (Binary.operator o).rank_lt_tightest)
      fun hdetached => hdetached.2.elim (template_ne_extractText hfield)
    exact ⟨r, e, hright.weaken (Nat.zero_le _), he, happlies⟩

/-- What the text of a condition and the sides of its operator are: the operator is tested with
both of its sides, unless it is detached. -/
structure ReadIn (a : Application) (c : Counter) (t : Template) (l r e : Expr) : Prop where
  whole : Reads 0 (t.marks c) e
  left : Reads 0 (a.left.marks c) l
  right : Reads 0 (a.right.marks c) r
  tested : .binary (.operator a.operator) l r ∈ e.tested ↔ ¬a.Detached

lemma readIn_operator (hexpr : Reads Binary.arrowRank (expr.marks c) l) (hvalues : expr.values = [])
    (hcodes : ∀ x ∈ v.codes, Tight x) (hlist : v ≠ .list []) (o : Operator) :
    ∃ l r e, (Application.mk expr o (v.template .postgres)).ReadIn c
      (o.template .postgres expr (v.template .postgres)) l r e := by
  obtain ⟨r, e, hright, hwhole, happlies⟩ := exists_applies hexpr hvalues hcodes hlist o
  refine ⟨l, r, e, hwhole.weaken (Nat.zero_le _), hexpr.weaken (Nat.zero_le _), hright, ?_⟩
  rw [happlies.tested_eq]
  exact happlies.mem_singleton_iff

lemma readIn_code {x : String} (hx : Tight x) (hcodes : ∀ x ∈ v.codes, Tight x)
    (hlist : v ≠ .list []) (o : Operator) :
    ∃ l r e, (Application.mk [.code x] o (v.template .postgres)).ReadIn c
      (o.template .postgres [.code x] (v.template .postgres)) l r e := by
  obtain ⟨l, hl⟩ := hx.reads
  refine readIn_operator (l := l) ?_ rfl hcodes hlist o
  rw [marks_code]
  exact hl.weaken (by decide)

lemma readIn_each (hcodes : ∀ x ∈ v.codes, Tight x) (hlist : v ≠ .list []) (f : FieldPath)
    (o : Operator) :
    ∃ l r e, (Application.mk (Dialect.eachItem .postgres) o (v.template .postgres)).ReadIn c
      (Condition.eachTemplate .postgres f o v) l r e := by
  have hitem : v.itemTemplate .postgres = v.template .postgres := by cases v <;> rfl
  obtain ⟨r, e, hright, hwhole, happlies⟩ :=
    exists_applies (c := c) reads_eachItem rfl hcodes hlist o
  rw [← hitem] at hwhole
  refine ⟨_, r, _, reads_eachTemplate .postgres f hwhole,
    reads_eachItem.weaken (Nat.zero_le _), hright, ?_⟩
  rw [Expr.tested, happlies.conjuncts_eq]
  exact happlies.mem_singleton_iff

lemma readIn_urlPath (hcodes : ∀ x ∈ v.codes, Tight x) (hlist : v ≠ .list []) (kind : Kind)
    (locale : Option String) :
    ∃ l r e, (Application.mk [.code "up.path"] (kind.operator?.getD (.compare .eq))
      (v.template .postgres)).ReadIn c
        (Condition.urlPathTemplate .postgres kind v locale) l r e := by
  have hpath : Reads Binary.arrowRank (marks c [.code "up.path"])
      (.atom (codeMarks "up.path")) := by
    rw [marks_code]
    exact reads_code (by decide) _
  obtain ⟨r, e, hright, hmatch, happlies⟩ := exists_applies hpath rfl hcodes hlist
    (kind.operator?.getD (.compare .eq))
  obtain ⟨source, condition, hwhole, us, vs, hconj, hothers⟩ :=
    reads_urlPathTemplate (j := 0) kind v locale hmatch
  refine ⟨_, r, _, hwhole, hpath.weaken (Nat.zero_le _), hright, ?_⟩
  rw [Expr.tested, hconj, happlies.conjuncts_eq]
  exact happlies.mem_iff hothers

/-- A field that is cast to a time is in parentheses, and so all of it is cast. -/
lemma marks_timestamp (f : FieldPath) {x : String} (hx : startsPlain x = true) :
    (.code "(" :: Dialect.extractText .postgres f ++ [.code x] : Template).marks c =
      .leftParen :: ((Dialect.extractText .postgres f).marks c ++ codeMarks x) := by
  rw [marks_append_code hx, marks_code_cons (by decide), marks_code]
  rfl

lemma reads_timestamp (f : FieldPath) : Reads Binary.cast.rank
    (marks c (.code "(" :: Dialect.extractText .postgres f ++ [.code ")::timestamptz"]))
    (.binary .cast (Expr.content.along "->>" f.keys) (.atom [.word "timestamptz".toList])) := by
  have hcast : codeMarks ")::timestamptz" =
      [.rightParen, .binary .cast, .word "timestamptz".toList] := by decide
  have htime : Reads (Binary.cast.rank + 1) [.word "timestamptz".toList]
      (.atom [.word "timestamptz".toList]) :=
    .atom (by simp) (by simp [Mark.isPlain])
  rw [marks_timestamp f (by decide), hcast]
  simpa using (reads_extractText (c := c) f).group.binary htime

lemma readIn_now (f : FieldPath) (rel : Relation) :
    ∃ l r e, (Application.mk (.code "(" :: Dialect.extractText .postgres f ++
        [.code ")::timestamptz"]) (.compare rel) (Operand.now.template .postgres)).ReadIn c
      (.code "(" :: Dialect.extractText .postgres f ++
        [.code (")::timestamptz " ++ rel.symbol ++ " " ++ Dialect.now .postgres)]) l r e := by
  have hleft := reads_timestamp (c := c) f
  have hright : Reads ((Binary.operator (.compare rel)).rank + 1)
      (marks c (Operand.now.template .postgres)) (.nullary "NOW".toList) := by
    rw [Operand.template, marks_code]
    exact .nullary (by decide)
  have hwhole := (hleft.weaken (by decide : Binary.arrowRank ≤ _)).operator hright
  have hmarks : marks c (.code "(" :: Dialect.extractText .postgres f ++
      [.code (")::timestamptz " ++ rel.symbol ++ " " ++ Dialect.now .postgres)]) =
        marks c (.code "(" :: Dialect.extractText .postgres f ++ [.code ")::timestamptz"]) ++
          (operatorMarks (.compare rel) ++ marks c (Operand.now.template .postgres)) := by
    have hcode : startsPlain (")::timestamptz " ++ rel.symbol ++ " " ++ Dialect.now .postgres) =
        true ∧ codeMarks (")::timestamptz " ++ rel.symbol ++ " " ++ Dialect.now .postgres) =
          codeMarks ")::timestamptz" ++
            (operatorMarks (.compare rel) ++ codeMarks (Dialect.now .postgres)) := by
      cases rel <;> exact ⟨by decide +kernel, by decide +kernel⟩
    rw [marks_timestamp f hcode.1, marks_timestamp f (by decide), hcode.2, Operand.template,
      marks_code]
    simp
  refine ⟨_, _, _, hmarks ▸ hwhole.weaken (Nat.zero_le _), hleft.weaken (Nat.zero_le _),
    hright.weaken (Nat.zero_le _), ?_⟩
  simp [Expr.tested, Detached]

lemma readIn_fields (f g : FieldPath) (rel : Relation) :
    ∃ l r e, (Application.mk (Dialect.extractJson .postgres f) (.compare rel)
        (Dialect.extractJson .postgres g)).ReadIn c
      (Dialect.extractJson .postgres f ++ .code (" " ++ rel.symbol ++ " ") ::
        Dialect.extractJson .postgres g) l r e := by
  have hright := reads_extractJson (c := c) g
  obtain ⟨e, he, happlies⟩ := applies_whole (o := .compare rel) (reads_extractJson (c := c) f)
    (by simp) (hright.weaken (by simp [Binary.rank, Binary.arrowRank]))
    (by simp [Detached])
  refine ⟨_, _, e, he.weaken (Nat.zero_le _), (reads_extractJson f).weaken (Nat.zero_le _),
    hright.weaken (Nat.zero_le _), ?_⟩
  rw [happlies.tested_eq]
  exact happlies.mem_singleton_iff

lemma fieldApplication?_eq_some {f : FieldPath} {right : Operand}
    (h : Condition.fieldApplication? f o right = some a) :
    (right = .now ∧ a = ⟨.code "(" :: Dialect.extractText .postgres f ++
        [.code ")::timestamptz"], .compare (o.relation?.getD .eq), right.template .postgres⟩ ∧
      Condition.postgresField f o right = .code "(" :: Dialect.extractText .postgres f ++
        [.code (")::timestamptz " ++ (o.relation?.getD .eq).symbol ++ " " ++
          Dialect.now .postgres)]) ∨
    (∃ r g, o = .compare r ∧ right = .location (.field g) ∧
      a = ⟨Dialect.extractJson .postgres f, .compare r, Dialect.extractJson .postgres g⟩) ∨
    (a = ⟨if f.wildcard.isSome then Dialect.eachItem .postgres
        else Dialect.extractText .postgres f, o, right.template .postgres⟩ ∧
      Condition.postgresField f o right =
        if f.wildcard.isSome then Condition.eachTemplate .postgres f o right
        else o.template .postgres (Dialect.extractText .postgres f)
          (right.template .postgres)) := by
  unfold Condition.fieldApplication? at h
  split at h
  · cases h
  · cases h
  · cases h
  · cases h
  · obtain rfl := Option.some.inj h
    cases o <;> simp [Condition.postgresField]
  · next r g =>
    obtain rfl := Option.some.inj h
    exact .inr (.inl ⟨r, g, rfl, rfl, rfl⟩)
  · obtain rfl := Option.some.inj h
    refine .inr (.inr ⟨rfl, ?_⟩)
    unfold Condition.postgresField
    split <;> simp_all

/-- The operator of a condition is tested with both of its sides, unless it is detached. -/
lemma exists_readIn {cond : Condition} (h : cond.application? = some a)
    (hcodes : ∀ x ∈ cond.codes, Tight x) (hlist : cond.operand? ≠ some (.list [])) (c : Counter) :
    ∃ l r e, a.ReadIn c (cond.template .postgres) l r e := by
  cases cond with
  | comparison left o right =>
    have hl : ∀ x ∈ left.codes, Tight x := fun x hx => hcodes x (List.mem_append_left _ hx)
    have hr : ∀ x ∈ right.codes, Tight x := fun x hx => hcodes x (List.mem_append_right _ hx)
    have hne : right ≠ .list [] := fun heq => hlist (by rw [heq]; rfl)
    cases left with
    | location loc =>
      cases loc with
      | field f =>
        rcases fieldApplication?_eq_some h with ⟨rfl, rfl, htemplate⟩ | ⟨r, g, rfl, rfl, rfl⟩ |
          ⟨rfl, htemplate⟩
        · rw [Condition.template, Condition.comparisonTemplate, htemplate]
          exact readIn_now _ _
        · exact readIn_fields f g r
        · rw [Condition.template, Condition.comparisonTemplate, htemplate]
          split
          · exact readIn_each hr hne f o
          · exact readIn_operator (reads_extractText f) (by simp) hr hne o
      | column x =>
        obtain rfl := Option.some.inj h
        have hx := hl x (by simp [Subject.codes, Location.codes])
        exact readIn_code hx hr hne o
    | number n =>
      obtain rfl := Option.some.inj h
      exact readIn_code (hl n (by simp [Subject.codes])) hr hne o
    | boolean b =>
      obtain rfl := Option.some.inj h
      exact readIn_code (tight_bool b) hr hne o
  | nullity loc negated => cases h
  | presence f => cases h
  | urlPath kind value locale =>
    obtain rfl := Option.some.inj h
    exact readIn_urlPath hcodes (fun heq => hlist (by rw [heq]; rfl)) kind locale

/-- Both sides of an operator can be read by themselves. -/
lemma readable_sides {cond : Condition} (h : cond.application? = some a)
    (hcodes : ∀ x ∈ cond.codes, Tight x) : Readable a.left ∧ Readable a.right := by
  have hquotes : ∀ x, Tight x → '\'' ∉ x.toList := fun x hx => hx.quote_free
  cases cond with
  | comparison left o right =>
    have hl : ∀ x ∈ left.codes, Tight x := fun x hx => hcodes x (List.mem_append_left _ hx)
    have hright := (formed_operand .postgres right
      fun x hx => hcodes x (List.mem_append_right _ hx)).readable hquotes
    cases left with
    | location loc =>
      cases loc with
      | field f =>
        rcases fieldApplication?_eq_some h with ⟨-, rfl, -⟩ | ⟨r, g, -, -, rfl⟩ | ⟨rfl, -⟩
        · have hopen : Formed Tight 0 (.code "(" :: Dialect.extractText .postgres f) 1 :=
            .ended (e := 1) (by decide) ((formed_extractText .postgres f).shift 1)
          exact ⟨(hopen.readable hquotes).concat (by decide) (by decide), hright⟩
        · exact ⟨(formed_extractJson .postgres f).readable hquotes,
            (formed_extractJson .postgres g).readable hquotes⟩
        · refine ⟨?_, hright⟩
          dsimp only
          split
          · exact (formed_eachItem .postgres).readable hquotes
          · exact (formed_extractText .postgres f).readable hquotes
      | column x =>
        obtain rfl := Option.some.inj h
        have hx := hl x (by simp [Subject.codes, Location.codes])
        exact ⟨(formed_free hx).readable hquotes, hright⟩
    | number n =>
      obtain rfl := Option.some.inj h
      exact ⟨(formed_free (hl n (by simp [Subject.codes]))).readable hquotes, hright⟩
    | boolean b =>
      obtain rfl := Option.some.inj h
      exact ⟨(formed_bool b).readable hquotes, hright⟩
  | nullity loc negated => cases h
  | presence f => cases h
  | urlPath kind value locale =>
    obtain rfl := Option.some.inj h
    have hpath : Formed Tight 0 [.code "up.path"] 0 :=
      .code (e := 0) (by decide) (.inr trivial) .nil
    exact ⟨hpath.readable hquotes, (formed_operand .postgres value hcodes).readable hquotes⟩

end Application

/-- The text of a condition is an expression, and so are the sides of its operator; the operator is
tested with just these, unless it is detached. -/
theorem Condition.reads_application {cond : Condition} {a : Application}
    (h : cond.application? = some a) (hcodes : ∀ x ∈ cond.codes, Tight x)
    (hlist : cond.operand? ≠ some (.list [])) (s : Sink) :
    ∃ l r e, expression? (a.left.fill s).1 = some l ∧ expression? (a.right.fill s).1 = some r ∧
      expression? ((cond.template .postgres).fill s).1 = some e ∧
      (.binary (.operator a.operator) l r ∈ e.tested ↔ ¬a.Detached) := by
  have hcond := (Template.formed_condition .postgres cond hcodes).readable
    fun x hx => hx.quote_free
  obtain ⟨hleft, hright⟩ := Application.readable_sides h hcodes
  obtain ⟨l, r, e, hread⟩ := Application.exists_readIn h hcodes hlist s.counter
  refine ⟨l, r, e, ?_, ?_, ?_, hread.tested⟩
  · rw [Template.expression?_fill hleft, hread.left.parse]
  · rw [Template.expression?_fill hright, hread.right.parse]
  · rw [Template.expression?_fill hcond, hread.whole.parse]

/-- In a text of SQL an operator is tested, alone or for the rows of a subquery, with just the
expressions that its sides are. -/
def Application.WholeIn (a : Application) (t : Template) (s : Sink) : Prop :=
  ∃ l r e, expression? (a.left.fill s).1 = some l ∧ expression? (a.right.fill s).1 = some r ∧
    expression? (t.fill s).1 = some e ∧ .binary (.operator a.operator) l r ∈ e.tested

theorem Condition.wholeIn_iff {cond : Condition} {a : Application}
    (h : cond.application? = some a) (hcodes : ∀ x ∈ cond.codes, Tight x)
    (hlist : cond.operand? ≠ some (.list [])) (s : Sink) :
    a.WholeIn (cond.template .postgres) s ↔ ¬a.Detached := by
  obtain ⟨l, r, e, hl, hr, he, htested⟩ := cond.reads_application h hcodes hlist s
  constructor
  · rintro ⟨l', r', e', hl', hr', he', hmem⟩
    obtain rfl := Option.some.inj (hl.symm.trans hl')
    obtain rfl := Option.some.inj (hr.symm.trans hr')
    obtain rfl := Option.some.inj (he.symm.trans he')
    exact htested.1 hmem
  · exact fun hwhole => ⟨l, r, e, hl, hr, he, htested.2 hwhole⟩

end ContentFilter
