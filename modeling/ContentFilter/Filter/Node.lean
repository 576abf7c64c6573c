import ContentFilter.Condition.Template
/-!
# Filter nodes

A filter is read as a sequence of nodes in the order of the source: conditions, connectives and
parentheses.  Written side by side, the nodes are the SQL of the filter.  No tree is built,
because SQL has the same connectives with the same precedence.
-/

namespace ContentFilter

/-- A part of a filter. -/
inductive Node where
  /-- A condition, with the dialect it is written in. -/
  | condition (dialect : Dialect) (condition : Condition)
  /-- A connective.  Every kind but `or` is written as a conjunction. -/
  | connective (kind : Kind)
  | leftParen
  | rightParen
deriving DecidableEq, Repr

namespace Node

/-- The node of a token that stands between conditions. -/
def ofConnective (t : Token) : Node :=
  match t.kind with
  | .leftParen => leftParen
  | .rightParen => rightParen
  | k => connective k

/-- The node of an operand that stands alone. -/
def ofLone (ctx : Context) (t : Token) : Except Refusal Node :=
  (Condition.ofLone t).map (condition ctx.dialect)

/-- The node of an operand, an operator and an operand. -/
def ofTriple (ctx : Context) (left operator right : Token) : Except Refusal Node :=
  (Condition.ofTriple ctx.builtins left operator right).map (condition ctx.dialect)

/-- A node as SQL. -/
def template : Node → Template
  | condition d c => c.template d
  | connective .or => [.code "OR"]
  | connective _ => [.code "AND"]
  | leftParen => [.code "("]
  | rightParen => [.code ")"]

/-- Nodes side by side, separated by spaces except on the inner side of a parenthesis.  No space
comes before the first node if `hug` is set. -/
def templateFrom (hug : Bool) : List Node → Template
  | [] => []
  | n :: r =>
    (if hug || n = rightParen then [] else [.code " "]) ++ n.template ++
      templateFrom (n = leftParen) r

/-- The SQL of a sequence of nodes. -/
def templateOf (nodes : List Node) : Template := templateFrom true nodes

end Node
end ContentFilter
