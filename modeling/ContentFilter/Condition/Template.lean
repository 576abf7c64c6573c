import ContentFilter.Condition
/-!
# Conditions as SQL

The SQL template of a condition in a dialect.  Most conditions are an expression, an operator and
a right side.  Three cases differ.

* PostgreSQL compares a field with a literal, and matches it against a regular expression, by a
  JSON path predicate; the value is part of the predicate and not bound.
* A field with a wildcard is compared item by item in a subquery.
* A condition on the path is a subquery on the table of URL paths.
-/

namespace ContentFilter

namespace Location

/-- The SQL expression of a location. -/
def template (d : Dialect) : Location → Template
  | field f => d.extractText f
  | column c => [.code c]

end Location

namespace Operand

/-- The right side as SQL.  Strings and the elements of a list are bound. -/
def template (d : Dialect) : Operand → Template
  | location l => l.template d
  | string s => [.hole (.string s)]
  | number n => [.code n]
  | boolean b => [.code (Scalar.ofBool b)]
  | now => [.code d.now]
  | list items => .code "(" :: Template.join ", " (items.map fun v => [.hole v]) ++ [.code ")"]

/-- The right side in a comparison with the items of a field.  SQLite compares items with bound
values only, so that numbers and booleans are bound as well. -/
def itemTemplate : Dialect → Operand → Template
  | .sqlite, number n => [.hole (.number n)]
  | .sqlite, boolean b => [.hole (.boolean b)]
  | d, v => v.template d

end Operand

namespace Operator

/-- An expression, the operator, and a right side. -/
def template (d : Dialect) (o : Operator) (expr right : Template) : Template :=
  match o with
  | compare r => expr ++ .code (" " ++ r.symbol ++ " ") :: right
  | like n c => d.like expr n c right
  | regex n c => d.regex expr n c right
  | member n => expr ++ .code (" " ++ Dialect.negation n ++ "IN ") :: right

end Operator

namespace Condition

/-- The condition that some item of a field satisfies the operator with the value. -/
def eachTemplate (d : Dialect) (f : FieldPath) (o : Operator) (value : Operand) : Template :=
  .code "EXISTS (SELECT 1 FROM " :: d.each f ++ .code " WHERE " ::
    o.template d d.eachItem (value.itemTemplate d) ++ [.code ")"]

/-- The JSON path predicate that compares a field with a literal. -/
def comparePredicate (f : FieldPath) (r : Relation) (literal : String) : String :=
  JsonPath.ofField f ++ " " ++ r.jsonPathSymbol ++ " " ++ literal

/-- The JSON path predicate that matches a field against a regular expression. -/
def matchPredicate (f : FieldPath) (caseless : Bool) (pattern : String) : String :=
  JsonPath.ofField f ++ " ? (@ like_regex " ++ JsonPath.quote pattern ++
    (if caseless then " flag \"i\"" else "") ++ ")"

/-- The comparison of a field with a literal in PostgreSQL. -/
def compareLiteral (f : FieldPath) (r : Relation) (literal : String) : Template :=
  Dialect.contentCall "jsonb_path_match" (comparePredicate f r literal)

/-- The comparison of a field in PostgreSQL. -/
def postgresField (f : FieldPath) (o : Operator) (right : Operand) : Template :=
  match o, right with
  | .compare r, .string s => compareLiteral f r (JsonPath.quote s)
  | .compare r, .number n => compareLiteral f r n
  | .compare r, .boolean b => compareLiteral f r (Scalar.ofBool b)
  | .regex n c, .string s =>
    .code (Dialect.negation n) ::
      Dialect.contentCall "jsonb_path_exists" (matchPredicate f c s)
  | o, .now =>
    .code "(" :: Dialect.extractText .postgres f ++
      [.code (")::timestamptz " ++ (o.relation?.getD .eq).symbol ++ " " ++
        Dialect.now .postgres)]
  | .compare r, .location (.field g) =>
    Dialect.extractJson .postgres f ++ .code (" " ++ r.symbol ++ " ") ::
      Dialect.extractJson .postgres g
  | o, right =>
    if f.wildcard.isSome then eachTemplate .postgres f o right
    else o.template .postgres (Dialect.extractText .postgres f) (right.template .postgres)

/-- The comparison of a field in SQLite. -/
def sqliteField (f : FieldPath) (o : Operator) (right : Operand) : Template :=
  if f.wildcard.isSome then eachTemplate .sqlite f o right
  else o.template .sqlite (Dialect.extractText .sqlite f) (right.template .sqlite)

/-- A comparison as SQL. -/
def comparisonTemplate (d : Dialect) (left : Subject) (o : Operator) (right : Operand) :
    Template :=
  match left with
  | .location (.field f) =>
    match d with
    | .postgres => postgresField f o right
    | .sqlite => sqliteField f o right
  | .location (.column c) => o.template d [.code c] (right.template d)
  | .number n => o.template d [.code n] (right.template d)
  | .boolean b => o.template d [.code (Scalar.ofBool b)] (right.template d)

/-- The restriction of a condition on the path to a locale. -/
def localeTemplate : Option String → Template
  | none => []
  | some locale => [.code " AND up.locale = ", .hole (.string locale)]

/-- A condition on the path as SQL. -/
def urlPathTemplate (d : Dialect) (operator : Kind) (value : Operand)
    (locale : Option String) : Template :=
  let o := operator.operator?.getD (.compare .eq)
  .code ("EXISTS (SELECT 1 FROM " ++ d.table "urlpaths" ++
    " up WHERE up.node = n.node AND up.inactive IS NULL AND ") ::
    o.template d [.code "up.path"] (value.template d) ++ localeTemplate locale ++ [.code ")"]

/-- A condition as SQL. -/
def template (d : Dialect) : Condition → Template
  | comparison left o right => comparisonTemplate d left o right
  | nullity l negated => l.template d ++ [.code (" IS " ++ Dialect.negation negated ++ "NULL")]
  | presence f => d.presence f
  | urlPath o value locale => urlPathTemplate d o value locale

end Condition
end ContentFilter
