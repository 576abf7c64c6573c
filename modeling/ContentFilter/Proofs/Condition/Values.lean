import ContentFilter.Proofs.Condition.Reading
import ContentFilter.Proofs.Filter.Compiled
/-!
# The values that a condition binds

Which of the literals of a condition are bound, and which are written into the SQL.  The rule is
one of tokens (`Filter.Clause.bound`): lists are bound, and so are strings on the right, unless
PostgreSQL compares a field with one or matches a field against it; SQLite also binds numbers and
booleans that are compared with the items of a field; a condition on the path binds its value and
then its locale.  The holes of a condition wait for just these values
(`Filter.Clause.values_of_condition`).
-/

namespace ContentFilter

/-! ## Values of templates -/

namespace Template

@[simp] lemma values_code (x : String) (t : Template) : values (.code x :: t) = values t := rfl

@[simp] lemma values_literal (x : String) (t : Template) : values (.literal x :: t) = values t :=
  rfl

@[simp] lemma values_hole (v : Scalar) (t : Template) : values (.hole v :: t) = v :: values t := rfl

@[simp] lemma values_nil : values [] = [] := rfl

@[simp] lemma values_join_holes (x : String) (items : List Scalar) :
    (join x (items.map fun v => [.hole v])).values = items := by
  induction items with
  | nil => rfl
  | cons v items ih =>
    cases items with
    | nil => rfl
    | cons w items => exact congrArg (v :: ·) ih

/-- A template without holes is filled with nothing. -/
lemma fill_of_values_eq_nil {t : Template} (h : t.values = []) (s : Sink) :
    t.fill s = (t.text, s) := by
  induction t with
  | nil => rfl
  | cons p r ih =>
    cases p with
    | code x => simp only [fill, text, ih h]
    | literal x => simp only [fill, text, ih h]
    | hole v => cases h

lemma text_append (t u : Template) : (t ++ u).text = t.text ++ u.text := by
  induction t with
  | nil => simp [text]
  | cons p r ih => cases p <;> simp [text, ih, String.append_assoc]

end Template

namespace Dialect

@[simp] lemma values_arrows (last : String) (keys : List String) :
    (arrows last keys).values = [] := by
  fun_induction arrows last keys with
  | case1 => rfl
  | case2 k => rfl
  | case3 k l ks ih => simpa using ih

@[simp] lemma values_contentCall (function literal : String) :
    (contentCall function literal).values = [] := rfl

@[simp] lemma values_extractText (d : Dialect) (f : FieldPath) : (d.extractText f).values = [] := by
  cases d <;> simp [extractText]

@[simp] lemma values_extractJson (d : Dialect) (f : FieldPath) : (d.extractJson f).values = [] := by
  cases d <;> simp [extractJson]

@[simp] lemma values_each (d : Dialect) (f : FieldPath) : (d.each f).values = [] := by
  cases d <;> simp [each]

@[simp] lemma values_eachItem (d : Dialect) : d.eachItem.values = [] := by
  cases d <;> rfl

@[simp] lemma values_presence (d : Dialect) (f : FieldPath) : (d.presence f).values = [] := by
  unfold presence
  split <;> split_ifs <;> simp

end Dialect

@[simp] lemma Operator.values_template (d : Dialect) (o : Operator) (expr right : Template) :
    (o.template d expr right).values = expr.values ++ right.values := by
  cases o with
  | compare r => simp [template]
  | like n c => cases d <;> cases c <;> simp [template, Dialect.like]
  | regex n c =>
    cases d with
    | postgres => simp [template, Dialect.regex]
    | sqlite => cases n <;> cases c <;> simp [template, Dialect.regex]
  | member n => simp [template]

@[simp] lemma Location.values_template (d : Dialect) (l : Location) :
    (l.template d).values = [] := by
  cases l <;> simp [template]

/-- The values written in an operand. -/
def Operand.literals : Operand → List Scalar
  | location _ | now => []
  | string s => [.string s]
  | number n => [.number n]
  | boolean b => [.boolean b]
  | list items => items

/-- Strings and lists are bound wherever they are written as an operand. -/
def Operand.bound : Operand → List Scalar
  | string s => [.string s]
  | list items => items
  | location _ | number _ | boolean _ | now => []

@[simp] lemma Operand.values_template (d : Dialect) (v : Operand) :
    (v.template d).values = v.bound := by
  cases v <;> simp [template, bound]

@[simp] lemma Operand.values_itemTemplate_postgres (v : Operand) :
    (v.itemTemplate .postgres).values = v.bound := by
  cases v <;> simp [itemTemplate]

/-- SQLite binds all literals that it compares with the items of a field. -/
lemma Operand.values_itemTemplate_sqlite (v : Operand) :
    (v.itemTemplate .sqlite).values = v.literals := by
  cases v <;> simp [itemTemplate, bound, literals]

namespace Condition

/-- Whether the literals on the right of a comparison are bound. -/
def binds (d : Dialect) (left : Subject) (o : Operator) : Operand → Bool
  | .list _ => true
  | .string _ =>
    match d, left, o with
    | .postgres, .location (.field _), .compare _ => false
    | .postgres, .location (.field _), .regex _ _ => false
    | _, _, _ => true
  | .number _ | .boolean _ => d = .sqlite && left.hasWildcard
  | .location _ | .now => false

variable (f : FieldPath) (o : Operator) (right : Operand)

@[simp] lemma values_eachTemplate (d : Dialect) :
    (eachTemplate d f o right).values = (right.itemTemplate d).values := by
  simp [eachTemplate]

lemma values_postgresField : (postgresField f o right).values =
    if binds .postgres (.location (.field f)) o right then right.literals else [] := by
  -- this is what is left when no JSON path predicate applies
  have hother : (if f.wildcard.isSome then eachTemplate .postgres f o right
      else o.template .postgres (Dialect.extractText .postgres f)
        (right.template .postgres)).values = right.bound := by
    split <;> simp
  cases right with
  | location l =>
    cases o with
    | compare r =>
      cases l with
      | field g => simp [postgresField, binds]
      | column c => exact hother
    | _ => exact hother
  | string s =>
    cases o with
    | compare r => simp [postgresField, compareLiteral, binds]
    | regex n c => simp [postgresField, binds]
    | _ => exact hother
  | number n =>
    cases o with
    | compare r => simp [postgresField, compareLiteral, binds]
    | _ => exact hother
  | boolean b =>
    cases o with
    | compare r => simp [postgresField, compareLiteral, binds]
    | _ => exact hother
  | now => cases o <;> simp [postgresField, binds]
  | list items => cases o <;> exact hother

lemma values_sqliteField : (sqliteField f o right).values =
    if binds .sqlite (.location (.field f)) o right then right.literals else [] := by
  have hwildcard : (Subject.location (.field f)).hasWildcard = f.wildcard.isSome := rfl
  unfold sqliteField
  split
  · next h =>
    rw [values_eachTemplate, Operand.values_itemTemplate_sqlite]
    cases right with
    | number n => simp [binds, hwildcard, h]
    | boolean b => simp [binds, hwildcard, h]
    | _ => rfl
  · next h =>
    cases right with
    | number n => simp [binds, Operand.bound, hwildcard, h]
    | boolean b => simp [binds, Operand.bound, hwildcard, h]
    | _ => simp [binds, Operand.bound, Operand.literals]

/-- A string is bound where no field is on the left. -/
lemma binds_string {d : Dialect} {left : Subject} (hleft : ∀ f, left ≠ .location (.field f))
    (o : Operator) (s : String) : binds d left o (.string s) = true := by
  cases left with
  | location l =>
    cases l with
    | field f => exact absurd rfl (hleft f)
    | column c => cases d <;> rfl
  | number n => cases d <;> rfl
  | boolean b => cases d <;> rfl

/-- The literals on the right of a comparison are bound, or none of them is. -/
lemma values_comparison (d : Dialect) (left : Subject) :
    (comparisonTemplate d left o right).values =
      if binds d left o right then right.literals else [] := by
  have hother : (∀ f, left ≠ .location (.field f)) →
      right.bound = if binds d left o right then right.literals else [] := by
    intro hleft
    have hwildcard : left.hasWildcard = false := by
      cases left with
      | location l =>
        cases l with
        | field f => exact absurd rfl (hleft f)
        | column c => rfl
      | number n => rfl
      | boolean b => rfl
    cases right with
    | string s => simp [binds_string hleft, Operand.bound, Operand.literals]
    | location l => simp [binds, Operand.bound]
    | number n => simp [binds, Operand.bound, hwildcard]
    | boolean b => simp [binds, Operand.bound, hwildcard]
    | now => simp [binds, Operand.bound]
    | list items => simp [binds, Operand.bound, Operand.literals]
  cases left with
  | location l =>
    cases l with
    | field f =>
      cases d with
      | postgres => exact values_postgresField f o right
      | sqlite => exact values_sqliteField f o right
    | column c => simpa [comparisonTemplate] using hother (by simp)
  | number n => simpa [comparisonTemplate] using hother (by simp)
  | boolean b => simpa [comparisonTemplate] using hother (by simp)

/-- The values that a condition binds. -/
theorem values_template (d : Dialect) (c : Condition) :
    (c.template d).values =
      match c with
      | .comparison left o right => if binds d left o right then right.literals else []
      | .nullity _ _ | .presence _ => []
      | .urlPath _ value locale => value.bound ++ (locale.toList.map .string) := by
  cases c with
  | comparison left o right => exact values_comparison o right d left
  | nullity l negated => simp [template]
  | presence f => simp [template]
  | urlPath k v locale => cases locale <;> simp [template, urlPathTemplate, localeTemplate]

end Condition

/-! ## Values of tokens -/

namespace Token

/-- The values that a token writes: the elements of a list, or its own. -/
def literals (t : Token) : List Scalar :=
  match t.kind with
  | .list => t.items.filterMap scalar?
  | _ => t.scalar?.toList

/-- The token is a field with a wildcard. -/
def isWildcardField (t : Token) : Bool :=
  t.kind = .field && (FieldPath.ofText? t.lexeme).any (·.wildcard.isSome)

/-- The locale of a path, if it has one. -/
def locale (t : Token) : List Scalar :=
  match Condition.localeOf t with
  | .ok (some l) => [.string l]
  | _ => []

end Token

namespace Filter

/-- The literals on the right of a comparison are bound: those of lists and strings, except for
strings that PostgreSQL compares with a field or matches it against; in SQLite also numbers and
booleans that are compared with a field with a wildcard. -/
def bindsRight (d : Dialect) (left operator right : Token) : Bool :=
  match right.kind with
  | .list => true
  | .string => !(d = .postgres && left.kind = .field &&
      operator.kind.operator?.any fun o => o.family = .comparison || o.family = .regex)
  | .number | .boolean => d = .sqlite && left.isWildcardField
  | _ => false

/-- The values that a clause binds, in order.  A condition on the path binds its value, and then
its locale. -/
def Clause.bound (d : Dialect) : Clause → List Scalar
  | lone _ => []
  | triple left operator right =>
    if left.kind = .path then right.literals ++ left.locale
    else if right.kind = .path then left.literals ++ right.locale
    else if bindsRight d left operator right then right.literals else []

end Filter

variable {b : Builtins} {t left operator right : Token}

lemma Token.filterMap_scalar {items : List Token} {vs : List Scalar}
    (h : List.Forall₂ (fun item v => item.scalar? = some v) items vs) :
    items.filterMap scalar? = vs := by
  induction h with
  | nil => rfl
  | cons hitem _ ih => rw [List.filterMap_cons_some hitem, ih]

/-- The values of an operand are those of its token. -/
lemma Operand.Reads.literals_eq {v : Operand} (h : v.Reads b t) : v.literals = t.literals := by
  cases h with
  | location hl =>
    rcases hl.kind_eq with hk | hk <;> simp [literals, Token.literals, Token.scalar?, hk]
  | string hk => simp [literals, Token.literals, Token.scalar?, hk]
  | number hk => simp [literals, Token.literals, Token.scalar?, hk]
  | boolean hk => simp [literals, Token.literals, Token.scalar?, hk]
  | now hk => simp [literals, Token.literals, Token.scalar?, hk]
  | list hk hitems =>
    rw [literals, Token.literals, hk]
    exact (Token.filterMap_scalar hitems).symm

/-- A subject is a field, and one with a wildcard, if its token is. -/
lemma Subject.Reads.field_iff {l : Subject} (h : l.Reads b t) :
    ((∃ f, l = .location (.field f)) ↔ t.kind = .field) ∧
      l.hasWildcard = t.isWildcardField := by
  cases h with
  | number hk => simp [hk, hasWildcard, Token.isWildcardField]
  | boolean hk => simp [hk, hasWildcard, Token.isWildcardField]
  | location hl =>
    cases hl with
    | field hk hf => simp [hk, hf, hasWildcard, Location.hasWildcard, Token.isWildcardField]
    | column hk hc => simp [hk, hasWildcard, Location.hasWildcard, Token.isWildcardField]

namespace Condition

variable {c : Condition}

/-- Whether a comparison binds its literals can be told from its tokens. -/
lemma binds_eq_bindsRight {d : Dialect} {l : Subject} {r : Operand} {o : Operator}
    (hl : l.Reads b left) (hr : r.Reads b right) (ho : operator.kind = .operator o) :
    binds d l o r = Filter.bindsRight d left operator right := by
  obtain ⟨hfield, hwildcard⟩ := hl.field_iff
  unfold Filter.bindsRight
  cases hr with
  | location hright => rcases hright.kind_eq with hk | hk <;> simp [binds, hk]
  | string hk =>
    rw [hk, ho]
    by_cases hleft : left.kind = .field
    · obtain ⟨f, rfl⟩ := hfield.2 hleft
      cases d <;> cases o <;> simp [binds, hleft, Kind.operator?, Operator.family]
    · have hnot : ∀ f, l ≠ .location (.field f) := fun f hf => hleft (hfield.1 ⟨f, hf⟩)
      rw [binds_string hnot]
      simp [hleft]
  | number hk =>
    rw [hk, ← hwildcard]
    rfl
  | boolean hk =>
    rw [hk, ← hwildcard]
    rfl
  | now hk =>
    rw [hk]
    rfl
  | list hk hitems =>
    rw [hk]
    rfl

/-- A condition on the path binds its value and its locale. -/
lemma values_urlPath {path value : Token} {v : Operand} {locale : Option String} (d : Dialect)
    (k : Kind) (hk : value.kind = .string ∨ value.kind = .list) (hv : v.Reads b value)
    (hlocale : localeOf path = .ok locale) :
    ((urlPath k v locale).template d).values = value.literals ++ path.locale := by
  have hbound : v.bound = v.literals := by
    cases hv with
    | location hl => rcases hl.kind_eq with hl | hl <;> simp [hl] at hk
    | string h => rfl
    | number h => simp [h] at hk
    | boolean h => simp [h] at hk
    | now h => rfl
    | list h hitems => rfl
  have hvalues : ((urlPath k v locale).template d).values =
      v.bound ++ locale.toList.map .string := values_template d _
  rw [hvalues, Token.locale, hlocale, hbound, hv.literals_eq]
  cases locale <;> rfl

end Condition

/-- The holes of a condition wait for the values that its clause binds. -/
theorem Filter.Clause.values_of_condition {ctx : Context} {clause : Filter.Clause} {c : Condition}
    (h : clause.condition ctx = .ok c) :
    (c.template ctx.dialect).values = clause.bound ctx.dialect := by
  cases clause with
  | lone t =>
    obtain ⟨f, -, -, rfl⟩ := Condition.ofLone_eq_ok_iff.1 h
    exact Condition.values_template ctx.dialect (.presence f)
  | triple left operator right =>
    rw [bound]
    cases Condition.ofTriple_eq_ok_iff.1 h with
    | @nullity l negated hnull hl hwildcard hk =>
      have hleft : left.kind ≠ .path := by rcases hl.kind_eq with hl | hl <;> simp [hl]
      rw [if_neg hleft, if_neg (by simp [hnull]), bindsRight, hnull]
      exact Condition.values_template ctx.dialect (.nullity l negated)
    | pathLeft hleft hvalue hreads hk hv hlocale =>
      rw [if_pos hleft]
      exact Condition.values_urlPath ctx.dialect _ hvalue hreads hlocale
    | pathRight hright hvalue hreads hk hv hlocale =>
      have hleft : left.kind ≠ .path := by rcases hvalue with hl | hl <;> simp [hl]
      rw [if_neg hleft, if_pos hright]
      exact Condition.values_urlPath ctx.dialect _ hvalue hreads hlocale
    | @comparison l o r hl hr hk hv hright hleft hnow =>
      have hvalues : ((Condition.comparison l o r).template ctx.dialect).values =
          if Condition.binds ctx.dialect l o r then r.literals else [] :=
        Condition.values_template ctx.dialect _
      rw [if_neg hl.kind_ne_path, if_neg hr.kind_ne.1, hvalues,
        Condition.binds_eq_bindsRight hl hr hk, hr.literals_eq]

end ContentFilter
