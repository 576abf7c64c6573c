import ContentFilter.Diagnostic
/-!
# Causes of refusal

The reasons for which a filter or an order-by statement is refused, one type for each stage of
its reading, and the wording of each.  A `ParseError` is a cause from any of the stages, with the
diagram that points at the offending part of the text.
-/

namespace ContentFilter

/-- Why a source cannot be cut into tokens. -/
inductive LexicalCause where
  /-- The connective `&` is written twice. -/
  | doubledAnd
  /-- The connective `|` is written twice. -/
  | doubledOr
  /-- An exclamation mark does not begin an operator. -/
  | bareNegation
  /-- A string has no closing delimiter. -/
  | unterminatedString
  /-- A minus sign is not followed by a digit. -/
  | digitAfterMinus
  /-- The point in a number is not followed by a digit. -/
  | digitAfterPoint
  /-- A name has two dots in a row. -/
  | doubleDot
  /-- A dot in a name is followed by neither a segment nor a wildcard. -/
  | danglingDot
  /-- A wildcard in a name does not follow a dot. -/
  | misplacedWildcard
  /-- A name goes on behind a wildcard. -/
  | wildcardNotLast
  /-- No token begins with this character. -/
  | unexpectedChar (c : Char)
deriving DecidableEq, Repr

/-- The wording of a lexical cause. -/
def LexicalCause.message : LexicalCause → String
  | doubledAnd => "Invalid boolean operator '&&'. Use '&' for AND."
  | doubledOr => "Invalid boolean operator '||'. Use '|' for OR."
  | bareNegation => "Invalid operator '!'. Use '!=', '!@', '!~', '!~*', '!~~' or '!~~*'."
  | unterminatedString => "Unterminated string"
  | digitAfterMinus => "Invalid number: expected a digit after '-'"
  | digitAfterPoint => "Invalid number: expected a digit after the decimal point"
  | doubleDot => "Invalid field name: double dot"
  | danglingDot => "Invalid field name: a dot must be followed by a name or a wildcard"
  | misplacedWildcard =>
    "Invalid field name: wildcards are only allowed directly after a dot"
  | wildcardNotLast => "Invalid field name: a wildcard must be the last segment"
  | unexpectedChar c => "Unexpected character '" ++ c.toString ++ "'"

/-- Why the brackets of a token sequence do not form lists. -/
inductive ListCause where
  /-- A list opens inside a list. -/
  | nested
  /-- A closing bracket has no opening one. -/
  | unmatchedClose
  /-- A list has no elements. -/
  | empty
  /-- A list holds an operator, a connective or a parenthesis. -/
  | notAValue
  /-- A list holds an operand other than a string, a number or a boolean. -/
  | notAScalar
  /-- A list is not closed. -/
  | unclosed
deriving DecidableEq, Repr

/-- The wording of a cause concerning lists. -/
def ListCause.message : ListCause → String
  | nested => "Nested lists are not allowed"
  | unmatchedClose => "Unbalanced brackets: ']' without matching '['"
  | empty => "Empty lists are not allowed"
  | notAValue => "Only values are allowed inside lists"
  | notAScalar => "Lists may only contain strings, numbers and booleans"
  | unclosed => "Unbalanced brackets: '[' is never closed"

/-- Why a token sequence does not have the shape of a filter. -/
inductive ShapeCause where
  /-- There are no tokens. -/
  | emptyFilter
  /-- An operator stands where a condition should begin. -/
  | operatorWithoutLeft
  /-- A bracket stands outside of a list. -/
  | unexpectedBracket
  /-- A parenthesis is not closed. -/
  | unclosedParen
  /-- The filter ends where a condition should begin. -/
  | incomplete
  /-- Two conditions follow each other directly. -/
  | missingConnective
  /-- Two operators follow each other. -/
  | doubledOperator
  /-- An operator has no right operand. -/
  | missingValue
  /-- Two operands follow each other. -/
  | missingOperator
  /-- An operand is followed by something that cannot follow it. -/
  | unexpectedToken
  /-- A connective stands where a condition should begin. -/
  | misplacedConnective
  /-- The filter ends with a connective. -/
  | trailingConnective
  /-- A parenthesis opens directly behind a condition. -/
  | missingConnectiveBeforeParen
  /-- A pair of parentheses encloses nothing. -/
  | emptyParens
  /-- A closing parenthesis has no opening one. -/
  | unmatchedParen
  /-- A parenthesis closes where a condition should begin. -/
  | incompleteGroup
deriving DecidableEq, Repr

/-- The wording of a cause concerning the shape of a filter. -/
def ShapeCause.message : ShapeCause → String
  | emptyFilter => "Empty filter expression"
  | operatorWithoutLeft => "Operator without a left hand operand"
  | unexpectedBracket => "Unexpected bracket"
  | unclosedParen => "Unbalanced parenthesis: '(' is never closed"
  | incomplete => "Incomplete expression"
  | missingConnective => "Missing boolean operator between conditions. Use '&' or '|'."
  | doubledOperator => "Multiple operators. Use a single operator, e.g. '=' instead of '=='."
  | missingValue => "Missing value after operator"
  | missingOperator => "Missing operator between operands"
  | unexpectedToken => "Invalid syntax"
  | misplacedConnective => "Invalid position for a boolean operator"
  | trailingConnective => "Boolean operator at the end of the expression."
  | missingConnectiveBeforeParen =>
    "Missing boolean operator before parenthesis. Use '&' or '|'."
  | emptyParens => "Empty parenthesis"
  | unmatchedParen => "Unbalanced parenthesis: ')' without matching '('"
  | incompleteGroup => "Incomplete expression before ')'"

/-- Why operands and operator do not make a condition. -/
inductive ConditionCause where
  /-- The left operand is null. -/
  | nullOnLeft
  /-- The full text index is used as an operand. -/
  | fulltext
  /-- The left operand is not of a kind that can stand there. -/
  | leftOperand
  /-- The operand compared with null is neither a field nor a builtin. -/
  | nullOperand
  /-- The right operand is not of a kind that can stand there. -/
  | rightOperand
  /-- A field has a name that is none. -/
  | invalidField
  /-- A builtin has no column. -/
  | unknownBuiltin
  /-- An element of a list is not a scalar. -/
  | listItem
  /-- The token between the operands is not an operator. -/
  | expectedOperator
  /-- A membership test has no list. -/
  | listRequired
  /-- Another operator has a list. -/
  | listForbidden
  /-- A pattern match has a value that cannot be a pattern. -/
  | patternRequired (operator : Operator)
  /-- A regular expression match has a value that cannot be a regular expression. -/
  | regexRequired (operator : Operator)
  /-- The right operand is a field with a wildcard. -/
  | wildcardOnRight
  /-- A field with a wildcard is compared with something that is not a literal. -/
  | wildcardNeedsLiteral
  /-- The word `now` is used with an operator that is not a comparison. -/
  | nowNeedsComparison
  /-- The path is compared with null. -/
  | pathWithNull
  /-- A field with a wildcard is compared with null. -/
  | wildcardWithNull
  /-- Null is used with an operator other than equality and inequality. -/
  | nullNeedsEquality
  /-- A builtin stands alone. -/
  | builtinPresence
  /-- The path stands alone. -/
  | pathPresence
  /-- Another operand that is not a field stands alone. -/
  | otherPresence
  /-- The path stands on the right of an operator that is not a comparison. -/
  | pathOnRight
  /-- The path is compared with something that is not a string. -/
  | pathNeedsString
  /-- The path has more than a locale behind it. -/
  | invalidPath
deriving DecidableEq, Repr

/-- The wording of a cause concerning a condition. -/
def ConditionCause.message : ConditionCause → String
  | nullOnLeft => "Null is not allowed on the left side of a condition"
  | fulltext => "Fulltext search is not supported in filter conditions"
  | leftOperand =>
    "Only fields, builtins, numbers or booleans are allowed on the left side of a condition"
  | nullOperand => "Only fields or builtins can be compared with null"
  | rightOperand => "Invalid value on the right side of a condition"
  | invalidField => "Invalid field name"
  | unknownBuiltin => "Unknown builtin"
  | listItem => "Lists may only contain strings, numbers and booleans"
  | expectedOperator => "Expected a comparison operator"
  | listRequired => "The in (@) and not in (!@) operators require a list, e.g. ['a', 'b']"
  | listForbidden => "Lists are only allowed with the in (@) and not in (!@) operators"
  | patternRequired o => "The operator '" ++ o.symbol ++ "' requires a string pattern"
  | regexRequired o => "The operator '" ++ o.symbol ++ "' requires a regular expression string"
  | wildcardOnRight => "Wildcard fields are not allowed on the right side of a condition"
  | wildcardNeedsLiteral => "Wildcard fields can only be compared with literal values"
  | nowNeedsComparison => "The keyword 'now' can only be used with =, !=, <, <=, > and >="
  | pathWithNull => "The path cannot be compared with null"
  | wildcardWithNull => "Wildcard fields cannot be compared with null"
  | nullNeedsEquality =>
    "Only equal or unequal operators are allowed when comparing with null"
  | builtinPresence =>
    "Builtins cannot be used as an existence check, compare them with a value"
  | pathPresence => "The path cannot be used as an existence check, compare it with a string"
  | otherPresence => "Only fields can be used as an existence check"
  | pathOnRight =>
    "With the path on the right side only =, !=, <, <=, > and >= are allowed"
  | pathNeedsString => "The path can only be compared with strings"
  | invalidPath => "Invalid path identifier, use 'path' or 'path.<locale>'"

/-- Why an order-by statement is refused. -/
inductive OrderCause where
  /-- The statement is blank. -/
  | emptyStatement
  /-- A segment is not a name with an optional direction. -/
  | invalidSegment (text : String)
  /-- A name stands for nothing that can be ordered by. -/
  | invalidName (name : String)
deriving DecidableEq, Repr

/-- The wording of a cause concerning an order-by statement. -/
def OrderCause.message : OrderCause → String
  | emptyStatement => "Empty order by statement"
  | invalidSegment text => "Invalid order by segment: '" ++ text ++ "'"
  | invalidName name => "Invalid field name in order by statement: '" ++ name ++ "'"

/-- Why a text is refused, whatever the stage that refuses it. -/
inductive Cause where
  | lexical (cause : LexicalCause)
  | list (cause : ListCause)
  | shape (cause : ShapeCause)
  | condition (cause : ConditionCause)
  | order (cause : OrderCause)
deriving DecidableEq, Repr

/-- The wording of a cause. -/
def Cause.message : Cause → String
  | lexical c => c.message
  | list c => c.message
  | shape c => c.message
  | condition c => c.message
  | order c => c.message

/-- The refusal of a filter or of an order-by statement. -/
structure ParseError where
  /-- Why the text is refused. -/
  cause : Cause
  /-- The part of the text that is at fault, where one can be named. -/
  pointer : Option Pointer
deriving DecidableEq, Repr

namespace ParseError

/-- The refusal of a source for a cause at a place in it. -/
def inSource (source : String) (e : Flagged Cause) : ParseError :=
  ⟨e.cause, e.mark.pointer? source⟩

/-- A refusal that points nowhere. -/
def unmarked (cause : Cause) : ParseError := ⟨cause, none⟩

/-- The cause in words, without the diagram. -/
def message (e : ParseError) : String := e.cause.message

/-- The refusal as it is shown to whoever wrote the text. -/
def diagnostic (e : ParseError) : Diagnostic := ⟨e.message, e.pointer⟩

/-- The cause in words, with the diagram below it. -/
def text (e : ParseError) : String := e.diagnostic.text

end ParseError
end ContentFilter
