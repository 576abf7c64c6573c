import ContentFilter.Proofs.Filter.Compiled
import ContentFilter.Proofs.Sql.Parameter
/-!
# The code of a filter names no parameter

A filter that is written as SQL has parameters in its holes only.  Its code has no colons but those
of the columns, and those of the cast of a field to a time, which stand beside each other.  So if
the columns have none, no code in the template of a condition names a parameter, and none in the
template of a whole filter (`Filter.Tree.unnamed_template`).
-/

namespace ContentFilter

namespace Template

open Sql

variable {expr right : Template}

/-! ## The parts of conditions -/

lemma unnamed_arrows {last : String} (h : Sql.Unnamed last) (keys : List String) :
    Unnamed (Dialect.arrows last keys) := by
  have harrow : Sql.Unnamed "->" := unnamed_ofList (by decide)
  fun_induction Dialect.arrows last keys with
  | case1 => exact unnamed_nil
  | case2 k => simpa using h
  | case3 k l r ih => simpa [harrow] using ih

lemma unnamed_contentCall {function : String} (h : ':' ∉ function.toList) (literal : String) :
    Unnamed (Dialect.contentCall function literal) := by
  have hopen : Sql.Unnamed (function ++ "(n.content, ") := unnamed_of_notMem (by simpa using h)
  have hclose : Sql.Unnamed ")" := unnamed_ofList (by decide)
  simpa [Dialect.contentCall] using ⟨hopen, hclose⟩

lemma unnamed_extractText (d : Dialect) (f : FieldPath) : Unnamed (d.extractText f) := by
  cases d with
  | postgres =>
    exact unnamed_code.2 ⟨unnamed_ofList (by decide),
      unnamed_arrows (unnamed_ofList (by decide)) _⟩
  | sqlite => exact unnamed_contentCall (by decide) _

lemma unnamed_extractJson (d : Dialect) (f : FieldPath) : Unnamed (d.extractJson f) := by
  cases d with
  | postgres =>
    exact unnamed_code.2 ⟨unnamed_ofList (by decide),
      unnamed_arrows (unnamed_ofList (by decide)) _⟩
  | sqlite => exact unnamed_contentCall (by decide) _

lemma unnamed_each (d : Dialect) (f : FieldPath) : Unnamed (d.each f) := by
  have hname : Sql.Unnamed " AS w(value)" := unnamed_ofList (by decide)
  cases d with
  | postgres => simpa [Dialect.each, hname] using unnamed_contentCall (by decide) _
  | sqlite => exact unnamed_contentCall (by decide) _

lemma unnamed_eachItem (d : Dialect) : Unnamed d.eachItem := by
  cases d with
  | postgres => exact unnamed_code.2 ⟨unnamed_ofList (by decide), unnamed_literal.2 unnamed_nil⟩
  | sqlite => exact unnamed_code.2 ⟨unnamed_ofList (by decide), unnamed_nil⟩

lemma unnamed_presence (d : Dialect) (f : FieldPath) : Unnamed (d.presence f) := by
  have hnull : Unnamed [.code " IS NOT NULL"] :=
    unnamed_code.2 ⟨unnamed_ofList (by decide), unnamed_nil⟩
  have hexists : Sql.Unnamed "EXISTS (SELECT 1 FROM " := unnamed_ofList (by decide)
  have hclose : Sql.Unnamed ")" := unnamed_ofList (by decide)
  cases d with
  | postgres =>
    simp only [Dialect.presence]
    split
    · exact unnamed_contentCall (by decide) _
    · exact unnamed_contentCall (by decide) _
  | sqlite =>
    simp only [Dialect.presence]
    split
    · exact unnamed_append.2 ⟨unnamed_contentCall (by decide) _, hnull⟩
    · split
      · simpa [hexists, hclose] using unnamed_each .sqlite f
      · exact unnamed_append.2 ⟨unnamed_contentCall (by decide) _, hnull⟩

lemma unnamed_infix {x : String} (hx : ':' ∉ x.toList) (he : expr.Unnamed) (hr : right.Unnamed) :
    Unnamed (expr ++ .code x :: right) :=
  unnamed_append.2 ⟨he, unnamed_code.2 ⟨unnamed_of_notMem hx, hr⟩⟩

lemma unnamed_like (d : Dialect) (n c : Bool) (he : expr.Unnamed) (hr : right.Unnamed) :
    Unnamed (d.like expr n c right) := by
  have hlike := unnamed_infix (x := " " ++ Dialect.negation n ++ "LIKE ")
    (by cases n <;> decide) he hr
  have hilike := unnamed_infix (x := " " ++ Dialect.negation n ++ "ILIKE ")
    (by cases n <;> decide) he hr
  have hcollate : Sql.Unnamed " COLLATE NOCASE" := unnamed_ofList (by decide)
  cases d <;> cases c
  case postgres.true => exact hilike
  case sqlite.true => exact unnamed_append.2 ⟨hlike, unnamed_code.2 ⟨hcollate, unnamed_nil⟩⟩
  all_goals exact hlike

lemma unnamed_regex (d : Dialect) (n c : Bool) (he : expr.Unnamed) (hr : right.Unnamed) :
    Unnamed (d.regex expr n c right) := by
  cases d with
  | postgres => exact unnamed_infix (by cases n <;> cases c <;> decide) he hr
  | sqlite =>
    have hclose : Sql.Unnamed ")" := unnamed_ofList (by decide)
    have hcall : Sql.Unnamed "regexp_i(" := unnamed_ofList (by decide)
    have hcomma : Sql.Unnamed ", " := unnamed_ofList (by decide)
    have hnot : Sql.Unnamed "NOT (" := unnamed_ofList (by decide)
    have hword : Sql.Unnamed " REGEXP " := unnamed_ofList (by decide)
    cases n <;> cases c <;> simp [Dialect.regex, *]

lemma unnamed_operator (d : Dialect) (o : Operator) (he : expr.Unnamed) (hr : right.Unnamed) :
    Unnamed (o.template d expr right) := by
  cases o with
  | compare r => exact unnamed_infix (by cases r <;> decide) he hr
  | like n c => exact unnamed_like d n c he hr
  | regex n c => exact unnamed_regex d n c he hr
  | member n => exact unnamed_infix (by cases n <;> decide) he hr

/-! ## Conditions with columns that have no colons -/

lemma unnamed_free {x : String} (h : ':' ∉ x.toList) : Unnamed [.code x] :=
  unnamed_code.2 ⟨unnamed_of_notMem h, unnamed_nil⟩

lemma unnamed_bool (b : Bool) : Unnamed [.code (Scalar.ofBool b)] :=
  unnamed_free (by cases b <;> decide)

lemma unnamed_location (d : Dialect) (l : Location) (h : ∀ x ∈ l.codes, ':' ∉ x.toList) :
    Unnamed (l.template d) := by
  cases l with
  | field f => exact unnamed_extractText d f
  | column c => exact unnamed_free (h c (by simp [Location.codes]))

lemma unnamed_join_holes (items : List Scalar) :
    Unnamed (join ", " (items.map fun v => [.hole v])) := by
  have hcomma : Sql.Unnamed ", " := unnamed_ofList (by decide)
  induction items with
  | nil => exact unnamed_nil
  | cons v items ih =>
    cases items with
    | nil => exact unnamed_hole.2 unnamed_nil
    | cons w items => exact unnamed_hole.2 (unnamed_code.2 ⟨hcomma, ih⟩)

lemma unnamed_operand (d : Dialect) (v : Operand) (h : ∀ x ∈ v.codes, ':' ∉ x.toList) :
    Unnamed (v.template d) := by
  cases v with
  | location l => exact unnamed_location d l h
  | string s => exact unnamed_hole.2 unnamed_nil
  | number n => exact unnamed_free (h n (by simp [Operand.codes]))
  | boolean b => exact unnamed_bool b
  | now => exact unnamed_free (by cases d <;> decide)
  | list items =>
    exact unnamed_code.2 ⟨unnamed_ofList (by decide),
      unnamed_append.2 ⟨unnamed_join_holes items, unnamed_free (by decide)⟩⟩

lemma unnamed_itemOperand (d : Dialect) (v : Operand) (h : ∀ x ∈ v.codes, ':' ∉ x.toList) :
    Unnamed (v.itemTemplate d) := by
  unfold Operand.itemTemplate
  split
  · exact unnamed_hole.2 unnamed_nil
  · exact unnamed_hole.2 unnamed_nil
  · exact unnamed_operand _ _ h

lemma unnamed_eachTemplate (d : Dialect) (f : FieldPath) (o : Operator) (v : Operand)
    (h : ∀ x ∈ v.codes, ':' ∉ x.toList) : Unnamed (Condition.eachTemplate d f o v) := by
  have hopen : Sql.Unnamed "EXISTS (SELECT 1 FROM " := unnamed_ofList (by decide)
  have hwhere : Sql.Unnamed " WHERE " := unnamed_ofList (by decide)
  have hclose : Sql.Unnamed ")" := unnamed_ofList (by decide)
  have hitem := unnamed_operator d o (unnamed_eachItem d) (unnamed_itemOperand d v h)
  simpa [Condition.eachTemplate, hopen, hwhere, hclose] using ⟨unnamed_each d f, hitem⟩

lemma unnamed_postgresField (f : FieldPath) (o : Operator) (v : Operand)
    (h : ∀ x ∈ v.codes, ':' ∉ x.toList) : Unnamed (Condition.postgresField f o v) := by
  unfold Condition.postgresField
  -- three sorts of literals, a regular expression, the time, another field, and all the rest
  split
  · exact unnamed_contentCall (by decide) _
  · exact unnamed_contentCall (by decide) _
  · exact unnamed_contentCall (by decide) _
  · next n _ _ =>
    exact unnamed_code.2 ⟨unnamed_of_notMem (by cases n <;> decide),
      unnamed_contentCall (by decide) _⟩
  · have hnow : ∀ r : Relation,
        Sql.Unnamed (")::timestamptz " ++ r.symbol ++ " " ++ Dialect.now .postgres) := fun r =>
      unnamed_cast (x := ")") (y := "timestamptz " ++ r.symbol ++ " " ++ Dialect.now .postgres)
        (by decide) (by cases r <;> decide) (by cases r <;> decide)
    have hopen : Sql.Unnamed "(" := unnamed_ofList (by decide)
    simpa [hopen, hnow] using unnamed_extractText .postgres f
  · next r g =>
    exact unnamed_infix (by cases r <;> decide) (unnamed_extractJson .postgres f)
      (unnamed_extractJson .postgres g)
  · split
    · exact unnamed_eachTemplate _ _ _ _ h
    · exact unnamed_operator _ _ (unnamed_extractText _ _) (unnamed_operand _ _ h)

lemma unnamed_sqliteField (f : FieldPath) (o : Operator) (v : Operand)
    (h : ∀ x ∈ v.codes, ':' ∉ x.toList) : Unnamed (Condition.sqliteField f o v) := by
  unfold Condition.sqliteField
  split
  · exact unnamed_eachTemplate _ _ _ _ h
  · exact unnamed_operator _ _ (unnamed_extractText _ _) (unnamed_operand _ _ h)

lemma unnamed_urlPath (d : Dialect) (k : Kind) (v : Operand) (locale : Option String)
    (h : ∀ x ∈ v.codes, ':' ∉ x.toList) :
    Unnamed (Condition.urlPathTemplate d k v locale) := by
  have hopen : Sql.Unnamed ("EXISTS (SELECT 1 FROM " ++ d.table "urlpaths" ++
      " up WHERE up.node = n.node AND up.inactive IS NULL AND ") :=
    ((unnamed_ofList (by decide)).append (unnamed_of_notMem (by cases d <;> decide))).append
      (unnamed_ofList (by decide))
  have hmatch := unnamed_operator d (k.operator?.getD (.compare .eq))
    (unnamed_free (x := "up.path") (by decide)) (unnamed_operand d v h)
  have hlocale : Unnamed (Condition.localeTemplate locale) := by
    cases locale with
    | none => exact unnamed_nil
    | some l => exact unnamed_code.2 ⟨unnamed_ofList (by decide), unnamed_hole.2 unnamed_nil⟩
  have hclose : Unnamed [.code ")"] := unnamed_free (by decide)
  exact unnamed_append.2 ⟨unnamed_append.2 ⟨unnamed_code.2 ⟨hopen, hmatch⟩, hlocale⟩, hclose⟩

/-- No code of a condition names a parameter if its columns and numbers have no colons. -/
lemma unnamed_condition (d : Dialect) (c : Condition) (h : ∀ x ∈ c.codes, ':' ∉ x.toList) :
    Unnamed (c.template d) := by
  cases c with
  | comparison l o r =>
    have hl : ∀ x ∈ l.codes, ':' ∉ x.toList := fun x hx => h x (List.mem_append_left _ hx)
    have hr : ∀ x ∈ r.codes, ':' ∉ x.toList := fun x hx => h x (List.mem_append_right _ hx)
    have hright := unnamed_operand d r hr
    cases l with
    | location l =>
      cases l with
      | field f =>
        cases d with
        | postgres => exact unnamed_postgresField f o r hr
        | sqlite => exact unnamed_sqliteField f o r hr
      | column x =>
        exact unnamed_operator d o (unnamed_free (hl x (by simp [Subject.codes, Location.codes])))
          hright
    | number n => exact unnamed_operator d o (unnamed_free (hl n (by simp [Subject.codes]))) hright
    | boolean b => exact unnamed_operator d o (unnamed_bool b) hright
  | nullity l negated =>
    exact unnamed_append.2 ⟨unnamed_location d l h, unnamed_free (by cases negated <;> decide)⟩
  | presence f => exact unnamed_presence d f
  | urlPath k v locale => exact unnamed_urlPath d k v locale h

end Template

/-- No code of a filter names a parameter if its columns and numbers have no colons. -/
theorem Filter.Tree.unnamed_template {l : Level} (d : Dialect) (t : Tree Condition l)
    (h : ∀ c ∈ t.atoms, ∀ x ∈ c.codes, ':' ∉ x.toList) : (t.template d).Unnamed := by
  have hspace : Sql.Unnamed " " := Sql.unnamed_ofList (by decide)
  have hand : Sql.Unnamed "AND" := Sql.unnamed_ofList (by decide)
  have hor : Sql.Unnamed "OR" := Sql.unnamed_ofList (by decide)
  have hopen : Sql.Unnamed "(" := Sql.unnamed_ofList (by decide)
  have hclose : Sql.Unnamed ")" := Sql.unnamed_ofList (by decide)
  induction t with
  | atom c => exact Template.unnamed_condition d c (h c (by simp [atoms]))
  | group e ih => simpa [template, hopen, hclose] using ih h
  | ofTerm t ih => exact ih h
  | and t c iht ihc =>
    have ht := iht fun a ha => h a (List.mem_append_left _ ha)
    have hc := ihc fun a ha => h a (List.mem_append_right _ ha)
    simp [template, separator, hspace, hand, ht, hc]
  | ofConj c ih => exact ih h
  | or c e ihc ihe =>
    have hc := ihc fun a ha => h a (List.mem_append_left _ ha)
    have he := ihe fun a ha => h a (List.mem_append_right _ ha)
    simp [template, separator, hspace, hor, hc, he]

end ContentFilter
