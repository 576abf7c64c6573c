import ContentFilter.Cause
import ContentFilter.Builtins
import ContentFilter.Dialect
/-!
# Conditions

A condition is made of one token or of three.  A field alone asks whether the content of the node
has it.  An operand, an operator and an operand make a comparison in the wide sense, with two
special cases: a comparison with `null`, and a condition on the path of the node, which is
recognised by the path on either side.

The constructors here resolve names, refuse operands that the operator does not accept, and name
the token that is at fault.  What they return can be written as SQL without further checks.
-/

namespace ContentFilter

/-- A place where a stored value is found. -/
inductive Location where
  /-- A field of the content. -/
  | field (path : FieldPath)
  /-- A column, as an SQL expression. -/
  | column (expr : String)
deriving DecidableEq, Repr

/-- The left side of a comparison. -/
inductive Subject where
  | location (location : Location)
  | number (text : String)
  | boolean (value : Bool)
deriving DecidableEq, Repr

/-- The right side of a comparison. -/
inductive Operand where
  | location (location : Location)
  | string (text : String)
  /-- A number, as it is written. -/
  | number (text : String)
  | boolean (value : Bool)
  /-- The current time. -/
  | now
  | list (items : List Scalar)
deriving DecidableEq, Repr

/-- A condition on a node. -/
inductive Condition where
  /-- The operator holds between the two sides. -/
  | comparison (left : Subject) (operator : Operator) (right : Operand)
  /-- The location holds null, or does not. -/
  | nullity (location : Location) (negated : Bool)
  /-- The content has the field. -/
  | presence (field : FieldPath)
  /-- Some active path of the node, in the given locale if there is one, satisfies the operator
  with the value.  A kind that is not an operator counts as equality. -/
  | urlPath (operator : Kind) (value : Operand) (locale : Option String)
deriving DecidableEq, Repr

/-- What the reading of conditions depends on. -/
structure Context where
  /-- The database that the conditions are written for. -/
  dialect : Dialect
  /-- The names that stand for columns. -/
  builtins : Builtins

/-- The refusal of a condition, with the token at fault. -/
structure Refusal where
  /-- Why the condition is refused. -/
  cause : ConditionCause
  /-- The token at fault. -/
  token : Token
deriving Repr

/-- A refusal as a fault at its token. -/
def Refusal.flagged (e : Refusal) : Flagged ConditionCause := ⟨e.cause, .span e.token.span⟩

namespace Location

/-- Whether the location is a field with a wildcard. -/
def hasWildcard : Location → Bool
  | field f => f.wildcard.isSome
  | column _ => false

/-- The field that a token names. -/
def fieldOf (t : Token) : Except Refusal FieldPath :=
  match FieldPath.ofText? t.lexeme with
  | some f => .ok f
  | none => .error ⟨.invalidField, t⟩

/-- The column that a token names. -/
def columnOf (b : Builtins) (t : Token) : Except Refusal String :=
  match b.column? t.lexeme with
  | some c => .ok c
  | none => .error ⟨.unknownBuiltin, t⟩

/-- The location on the left of a condition; the cause is for tokens that cannot be one. -/
def ofLeft (b : Builtins) (otherwise : ConditionCause) (t : Token) : Except Refusal Location :=
  match t.kind with
  | .field => (fieldOf t).map field
  | .builtin => (columnOf b t).map column
  | .null => .error ⟨.nullOnLeft, t⟩
  | .fulltext => .error ⟨.fulltext, t⟩
  | _ => .error ⟨otherwise, t⟩

end Location

namespace Subject

/-- Whether the subject is a field with a wildcard. -/
def hasWildcard : Subject → Bool
  | location l => l.hasWildcard
  | _ => false

/-- The left side that a token stands for. -/
def ofToken (b : Builtins) (t : Token) : Except Refusal Subject :=
  match t.kind with
  | .number => .ok (.number t.lexeme)
  | .boolean => .ok (.boolean (t.lexeme == "true"))
  | _ => (Location.ofLeft b .leftOperand t).map location

end Subject

namespace Operand

/-- Whether the operand is a field with a wildcard. -/
def hasWildcard : Operand → Bool
  | location l => l.hasWildcard
  | _ => false

/-- Whether the operand is a value written in the filter. -/
def isLiteral : Operand → Bool
  | string _ | number _ | boolean _ | list _ => true
  | location _ | now => false

/-- The scalar that an element of a list stands for. -/
def itemOf (t : Token) : Except Refusal Scalar :=
  match t.kind with
  | .string => .ok (.string t.lexeme)
  | .boolean => .ok (.boolean (t.lexeme == "true"))
  | .number => .ok (.number t.lexeme)
  | _ => .error ⟨.listItem, t⟩

/-- The list that a token stands for. -/
def listOf (t : Token) : Except Refusal Operand := (t.items.mapM itemOf).map list

/-- The right side that a token stands for. -/
def ofToken (b : Builtins) (t : Token) : Except Refusal Operand :=
  match t.kind with
  | .field => (Location.fieldOf t).map fun f => location (.field f)
  | .builtin => (Location.columnOf b t).map fun c => location (.column c)
  | .string => .ok (string t.lexeme)
  | .number => .ok (number t.lexeme)
  | .boolean => .ok (boolean (t.lexeme == "true"))
  | .keyword => .ok now
  | .list => listOf t
  | .fulltext => .error ⟨.fulltext, t⟩
  | _ => .error ⟨.rightOperand, t⟩

end Operand

/-- Why an operator does not accept a value, if it does not. -/
def Operator.objection? (o : Operator) (value : Operand) : Option ConditionCause :=
  match o, value with
  | .member _, .list _ => none
  | .member _, _ => some .listRequired
  | _, .list _ => some .listForbidden
  | .compare _, _ => none
  | .like _ _, .string _ | .like _ _, .location _ => none
  | .like _ _, _ => some (.patternRequired o)
  | .regex _ _, .string _ | .regex _ _, .location _ => none
  | .regex _ _, _ => some (.regexRequired o)

namespace Condition

/-- The operator that a token stands for, provided that it accepts the value. -/
def operatorOf (operator valueToken : Token) (value : Operand) : Except Refusal Operator :=
  match operator.kind with
  | .operator o =>
    match o.objection? value with
    | none => .ok o
    | some cause => .error ⟨cause, valueToken⟩
  | _ => .error ⟨.expectedOperator, operator⟩

/-- The comparison of two operands. -/
def ofComparison (b : Builtins) (left operator right : Token) : Except Refusal Condition := do
  let l ← Subject.ofToken b left
  let r ← Operand.ofToken b right
  let o ← operatorOf operator right r
  if r.hasWildcard then .error ⟨.wildcardOnRight, right⟩
  else if l.hasWildcard && !r.isLiteral then .error ⟨.wildcardNeedsLiteral, right⟩
  else if r = .now && o.family ≠ .comparison then .error ⟨.nowNeedsComparison, right⟩
  else .ok (.comparison l o r)

/-- The comparison of an operand with null. -/
def ofNull (b : Builtins) (left operator : Token) : Except Refusal Condition :=
  if left.kind = .path then .error ⟨.pathWithNull, left⟩
  else do
    let l ← Location.ofLeft b .nullOperand left
    if l.hasWildcard then .error ⟨.wildcardWithNull, left⟩
    else
      match operator.kind with
      | .operator (.compare .eq) => .ok (.nullity l false)
      | .operator (.compare .ne) => .ok (.nullity l true)
      | _ => .error ⟨.nullNeedsEquality, operator⟩

/-- A field that stands alone. -/
def ofLone (t : Token) : Except Refusal Condition :=
  match t.kind with
  | .field => (Location.fieldOf t).map presence
  | .builtin => .error ⟨.builtinPresence, t⟩
  | .path => .error ⟨.pathPresence, t⟩
  | .fulltext => .error ⟨.fulltext, t⟩
  | _ => .error ⟨.otherPresence, t⟩

/-- The locale in a path identifier, if it is one: a path alone, or with a wildcard, stands for
every locale. -/
def localeOf (path : Token) : Except Refusal (Option String) :=
  match Text.splitOn '.' path.lexeme.toList with
  | [word] => if word = "path".toList then .ok none else .error ⟨.invalidPath, path⟩
  | [word, locale] =>
    if word = "path".toList then
      if locale = ['*'] ∨ locale = ['?'] then .ok none else .ok (some (String.ofList locale))
    else .error ⟨.invalidPath, path⟩
  | _ => .error ⟨.invalidPath, path⟩

/-- The condition between the path, the other token and the kind that the path sees as
operator. -/
def ofPath (b : Builtins) (path operator value : Token) (kind : Kind) :
    Except Refusal Condition := do
  let v ← match value.kind with
    | .string => .ok (Operand.string value.lexeme)
    | .list => Operand.ofToken b value
    | _ => .error ⟨.pathNeedsString, value⟩
  let _ ← operatorOf operator value v
  let locale ← localeOf path
  return .urlPath kind v locale

/-- A condition on the path of the node, which stands on the left or else is taken to stand on
the right.  On the right it takes comparisons only, and these are read from its side. -/
def ofUrlPath (b : Builtins) (left operator right : Token) : Except Refusal Condition :=
  if left.kind = .path then ofPath b left operator right operator.kind
  else
    match operator.kind with
    | .operator (.compare _) => ofPath b right operator left operator.kind.swapped
    | _ => .error ⟨.pathOnRight, operator⟩

/-- The condition that an operand, an operator and an operand make. -/
def ofTriple (b : Builtins) (left operator right : Token) : Except Refusal Condition :=
  if right.kind = .null then ofNull b left operator
  else if left.kind = .path ∨ right.kind = .path then ofUrlPath b left operator right
  else ofComparison b left operator right

end Condition
end ContentFilter
