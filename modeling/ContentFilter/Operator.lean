/-!
# Operators of a condition

An operator compares two operands, matches a text against a pattern or a regular expression, or
looks a value up in a list.  All but the comparisons exist in a negated form, and the two kinds
of matching also in a form that disregards case.  Each operator has one spelling in a filter
(`Operator.symbol`); the comparisons also have one in SQL and one in a JSON path, which differ
only for equality.
-/

namespace ContentFilter

/-- The six comparisons. -/
inductive Relation where
  /-- The operands are equal. -/
  | eq
  /-- The operands differ. -/
  | ne
  /-- The left operand is greater. -/
  | gt
  /-- The left operand is greater or equal. -/
  | ge
  /-- The left operand is less. -/
  | lt
  /-- The left operand is less or equal. -/
  | le
deriving DecidableEq, Repr

namespace Relation

/-- The spelling of a comparison in SQL and in a filter. -/
def symbol : Relation → String
  | eq => "="
  | ne => "!="
  | gt => ">"
  | ge => ">="
  | lt => "<"
  | le => "<="

/-- The spelling of a comparison in a JSON path. -/
def jsonPathSymbol : Relation → String
  | eq => "=="
  | r => r.symbol

/-- The comparison that says the same with its operands exchanged. -/
def swapped : Relation → Relation
  | eq => eq
  | ne => ne
  | gt => lt
  | ge => le
  | lt => gt
  | le => ge

@[simp] theorem swapped_swapped (r : Relation) : r.swapped.swapped = r := by
  cases r <;> rfl

end Relation

/-- The four families of operators; they differ in the values they accept. -/
inductive OperatorFamily where
  | comparison
  | like
  | regex
  | membership
deriving DecidableEq, Repr

/-- An operator between the two sides of a condition. -/
inductive Operator where
  /-- One of the six comparisons. -/
  | compare (relation : Relation)
  /-- The SQL pattern match, with `%` and `_` as wildcards. -/
  | like (negated caseless : Bool)
  /-- The match of a regular expression. -/
  | regex (negated caseless : Bool)
  /-- Membership in a list. -/
  | member (negated : Bool)
deriving DecidableEq, Repr

namespace Operator

/-- The family of an operator. -/
def family : Operator → OperatorFamily
  | compare _ => .comparison
  | like _ _ => .like
  | regex _ _ => .regex
  | member _ => .membership

/-- Whether the operator is the negated form of a match or of a membership.  A comparison is not
a negated form, `!=` included. -/
def negated : Operator → Bool
  | compare _ => false
  | like n _ => n
  | regex n _ => n
  | member n => n

/-- Whether the operator matches without regard to case. -/
def caseless : Operator → Bool
  | compare _ => false
  | like _ c => c
  | regex _ c => c
  | member _ => false

/-- The comparison an operator is, if it is one. -/
def relation? : Operator → Option Relation
  | compare r => some r
  | _ => none

/-- The spelling of an operator in a filter. -/
def symbol : Operator → String
  | compare r => r.symbol
  | like false false => "~~"
  | like false true => "~~*"
  | like true false => "!~~"
  | like true true => "!~~*"
  | regex false false => "~"
  | regex false true => "~*"
  | regex true false => "!~"
  | regex true true => "!~*"
  | member false => "@"
  | member true => "!@"

/-- The operator with its sides exchanged; only comparisons change. -/
def swapped : Operator → Operator
  | compare r => compare r.swapped
  | o => o

end Operator
end ContentFilter
