import ContentFilter.Text.Blank
import ContentFilter.Text.Letter
import ContentFilter.Text.Numeral
import ContentFilter.Table
import ContentFilter.Proofs.Outcome
import ContentFilter.Proofs.Table
import ContentFilter.Proofs.Text.ByteOrder
import ContentFilter.Proofs.Text.Cutting
import ContentFilter.Operator
import ContentFilter.Token
import ContentFilter.Token.Bracketed
import ContentFilter.Token.Lexeme
import ContentFilter.Token.Scan
import ContentFilter.Builtins
import ContentFilter.Diagnostic
import ContentFilter.Cause
import ContentFilter.Proofs.Token.Grammar
import ContentFilter.Proofs.Token.Parallel
import ContentFilter.Proofs.Token.Tiling
import ContentFilter.Proofs.Token.Fault
import ContentFilter.Proofs.Token.Source
import ContentFilter.Proofs.Token.Alike
import ContentFilter.Proofs.Token.Escape
import ContentFilter.Proofs.Token.Placement
import ContentFilter.Proofs.Token.Reserved
import ContentFilter.Proofs.Token.Stretch
import ContentFilter.Proofs.Token.Folding
import ContentFilter.Proofs.Token.Spacing
import ContentFilter.Proofs.Token.Identifier
import ContentFilter.Proofs.Token.Between
import ContentFilter.FieldPath
import ContentFilter.Sql.Sink
import ContentFilter.Sql.JsonPath
import ContentFilter.Sql.Template
import ContentFilter.Dialect
import ContentFilter.Proofs.Sql.Glyph
import ContentFilter.Proofs.Sql.Quotation
import ContentFilter.Proofs.Sql.Binding
import ContentFilter.Proofs.Sql.Placeholder
import ContentFilter.Proofs.Sql.Sign
import ContentFilter.Proofs.Sql.Similar
import ContentFilter.Proofs.Sql.Journal
import ContentFilter.Proofs.Sql.Mark
import ContentFilter.Proofs.Sql.Merge
import ContentFilter.Proofs.Sql.Connective
import ContentFilter.Proofs.Sql.Renaming
import ContentFilter.Proofs.Sql.Expression
import ContentFilter.Proofs.Sql.PathText
import ContentFilter.Proofs.Sql.Parameter
import ContentFilter.Proofs.Sql.Address
import ContentFilter.Proofs.Sql.Access
import ContentFilter.Scalar
import ContentFilter.Condition
import ContentFilter.Condition.Template
import ContentFilter.Proofs.Condition.Parallel
import ContentFilter.Proofs.Condition.Reading
import ContentFilter.Proofs.Condition.Alike
import ContentFilter.Proofs.Condition.Fields
import ContentFilter.Proofs.Condition.Inlined
import ContentFilter.Proofs.Condition.Names
import ContentFilter.Proofs.Condition.Shape
import ContentFilter.Proofs.Condition.PathTexts
import ContentFilter.Proofs.Condition.Signs
import ContentFilter.Proofs.Condition.FieldNames
import ContentFilter.Proofs.Condition.Source
import ContentFilter.Proofs.Condition.Related
import ContentFilter.Proofs.Condition.Refusal
import ContentFilter.Proofs.Condition.Values
import ContentFilter.Proofs.Condition.Addresses
import ContentFilter.Proofs.Condition.Expressions
import ContentFilter.Proofs.Condition.Matching
import ContentFilter.Proofs.Condition.Operands
import ContentFilter.Proofs.Condition.Wildcards
import ContentFilter.Proofs.Condition.Draft
import ContentFilter.Filter.Node
import ContentFilter.Filter.Reader
import ContentFilter.Proofs.Filter.Grammar
import ContentFilter.Proofs.Filter.Reading
import ContentFilter.Proofs.Filter.Tree
import ContentFilter.Proofs.Filter.Acceptance
import ContentFilter.Proofs.Filter.Sides
import ContentFilter.Proofs.Filter.Nesting
import ContentFilter.Proofs.Filter.Blame
import ContentFilter.Proofs.Filter.Diagnostic
import ContentFilter.Proofs.Filter.Precluded
import ContentFilter.Proofs.Filter.Parallel
import ContentFilter.Proofs.Filter.Dialects
import ContentFilter.Proofs.Filter.Lookup
import ContentFilter.Proofs.Filter.Layout
import ContentFilter.Proofs.Filter.TrailingBlanks
import ContentFilter.Proofs.Filter.Printing
import ContentFilter.Proofs.Filter.Rendering
import ContentFilter.Proofs.Filter.Compiled
import ContentFilter.Proofs.Filter.Structure
import ContentFilter.Proofs.Filter.Placeholders
import ContentFilter.Proofs.Filter.Parameters
import ContentFilter.Proofs.Filter.Injection
import ContentFilter.Proofs.Filter.Operands
import ContentFilter.Proofs.Filter.PathTexts
import ContentFilter.Proofs.Filter.Wildcards
import ContentFilter.Proofs.Filter.Writing
import ContentFilter.Proofs.Filter.Session
import ContentFilter.Proofs.Filter.Collision
import ContentFilter.Proofs.Filter.Merging
import ContentFilter.Proofs.Filter.Composition
import ContentFilter.Proofs.Filter.Renaming
import ContentFilter.Proofs.Filter.Ordering
import ContentFilter.Proofs.Filter.Nullity
import ContentFilter.OrderBy
import ContentFilter.Compiler
import ContentFilter.Proofs.Order.Pattern
import ContentFilter.Proofs.Order.Words
import ContentFilter.Proofs.Order.Directions
import ContentFilter.Decimal
import ContentFilter.Decimal.Binary64
import ContentFilter.Decimal.Shortest
import ContentFilter.Json
import ContentFilter.Json.Read
import ContentFilter.Proofs.Decimal.Denotation
import ContentFilter.Proofs.Decimal.Ties
import ContentFilter.Proofs.Json.Strings
import ContentFilter.Manual
import ContentFilter.Options
import ContentFilter.Proofs.Options.Builtins
import ContentFilter.Proofs.Options.Numbers
import ContentFilter.Proofs.Options.Validity
import ContentFilter.Argument
import ContentFilter.Settings
import ContentFilter.Command
import ContentFilter.Main
import ContentFilter.Proofs.Command.Arguments
import ContentFilter.Proofs.Command.Outcomes
/-!
# Content filters

A filter is a text such as `published >= '2020-01-01' & (title ~~* '%go%' | tags.? = 'go')`.  The
compiler turns it into a condition in SQL, for PostgreSQL or SQLite, with placeholders for the
values it binds; it does the same for the statements that content is ordered by.

The modules under `Proofs` say what it does on every text, from the bottom up.

* `Text`, `Table` and `Outcome` hold what is needed of texts, tables and computations that can fail.
* `Token`: a source is cut into tokens in one way only, which a grammar describes; strings are
  escaped and lists are folded without loss.
* `Sql`: SQL is read back, as far as the results need it: its literals, parentheses, connectives,
  operators, placeholders, and the places in the content that it takes values from.
* `Condition`: which conditions there are, and what their SQL says, binds and refers to.
* `Filter`: the texts that are accepted are those of a grammar, and their SQL is that of one tree,
  whose values never change its structure.  Refusals point at their cause.  Builtins, dialects and
  layout change no more than they should, and fragments can be merged.
* `Order`: statements to order by are read word by word, as a regular expression would.
* `Decimal` and `Json`: numbers in JSON are exact or are texts.
* `Options` and `Command`: builtins override each other in order, and exit codes tell options that
  are not valid from texts that are refused.

Not everything one would expect is true, and then a theorem says when it is: negated matches on
PostgreSQL and SQLite (`Condition.Matching`), operands next to a regular expression
(`Filter.Operands`), fragments whose stems run into each other (`Filter.Collision`), numbers with
zeros in front in JSON paths (`Filter.PathTexts`), names beyond ASCII and the long s in statements
to order by (`Filter.Ordering`, `Order.Directions`), and fractions in a tie (`Options.Numbers`).
-/
