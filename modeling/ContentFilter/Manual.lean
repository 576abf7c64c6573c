import ContentFilter.Dialect
/-!
# The manual

The manual of the command line tool has an overview and five pages, which are found by several
names each.  Case does not matter in the names, and a hyphen stands for an underscore.
-/

namespace ContentFilter

/-- The pages of the manual. -/
inductive Page where
  | conditions
  | operators
  | values
  | paths
  | orderBy
deriving DecidableEq, Repr

namespace Page

/-- The names of a page. -/
def names : Page → List String
  | conditions => ["syntax"]
  | operators => ["operators", "ops"]
  | values => ["values", "value", "literals"]
  | paths => ["paths", "path", "urls"]
  | orderBy => ["order", "order_by", "sort"]

/-- All pages. -/
def all : List Page := [conditions, operators, values, paths, orderBy]

/-- The page with a name. -/
def ofName? (name : String) : Option Page :=
  let lower := (lowerCase name).map fun c => if c = '-' then '_' else c
  all.find? fun page => page.names.contains lower

end Page

namespace Manual

/-- The list of the pages. -/
def overview : String :=
  "CMSFILTER DOCUMENTATION

cmsfilter compiles filter expressions over node content into SQL WHERE
fragments for PostgreSQL (JSONB) and SQLite (JSON1), plus order-by clauses.

DOCUMENTATION CATEGORIES

  syntax            Conditions, connectors, parentheses and existence checks
  operators         Comparison, pattern, regular expression and list operators
  values            Strings, numbers, booleans, null, now and lists
  paths             Conditions on the node's URL paths
  order             Order-by statements

QUICK REFERENCE

  field = 'x'       Compare a content field
  field.de          Locale or sub key of a field value
  field.*           Any member of the field value
  field             Field exists
  a & b | c         AND / OR, no precedence applied by the compiler
  ( ... )           Grouping

Run 'cmsfilter doc <category>' for detailed documentation.
"

/-- Conditions, connectives and fields. -/
def conditions : String :=
  "SYNTAX - Conditions and Connectors

CONDITIONS
  operand operator operand
    The left side is a field, a builtin, a number or a boolean.

    Example:
      category = 'news'
      published = true

EXISTENCE CHECK
  field
    True if the node content contains the field.

    Constraints:
      - Only content fields, not builtins or path

CONNECTORS
  &     AND
  |     OR

    Example:
      category = 'news' & (rating > 5 | featured = true)

    Constraints:
      - '&&' and '||' are rejected
      - A connector may not end the expression
      - Connectors are emitted in source order; the database evaluates
        AND before OR. Use parentheses to group explicitly.

FIELDS
  title             $.title.value
  title.de          $.title.value.de
  title.*           any member of $.title.value
  tags.?            any element of the array $.tags.value

    Constraints:
      - Names start with a letter and contain letters, digits, '_' and '-'
      - A wildcard must be the last segment
"

/-- Operators. -/
def operators : String :=
  "OPERATORS - Comparison, Patterns, Lists

COMPARISON
  =  !=  >  >=  <  <=

PATTERNS (SQL LIKE)
  ~~    like
  ~~*   case insensitive like
  !~~   not like
  !~~*  case insensitive not like

    Example:
      title ~~ '%rust%'

REGULAR EXPRESSIONS
  ~     matches
  ~*    matches, case insensitive
  !~    does not match
  !~*   does not match, case insensitive

    Example:
      title ~* /^rust/

LISTS
  @     in
  !@    not in

    Example:
      category @ ['news', 'blog']

    Constraints:
      - '==' is rejected, use '='
      - A bare '!' is rejected
"

/-- Literals. -/
def values : String :=
  "VALUES - Literals

STRINGS
  \"double\", 'single' or /pattern/
    The delimiter can be escaped with a backslash: 'it\\'s'

NUMBERS
  13, -4, 2.5

BOOLEANS
  true, false

NULL
  field = null      IS NULL
  field != null     IS NOT NULL

    Constraints:
      - Only = and != are allowed with null

NOW
  published <= now
    The current timestamp.

LISTS
  ['a', 'b', 3]
    Commas are optional. Lists contain strings, numbers and booleans.
"

/-- Conditions on the path. -/
def paths : String :=
  "PATHS - URL Path Conditions

  path = '/about'
  path.de ~~ '/produkte/%'
  path @ ['/a', '/b']

    Matches nodes with an active URL path satisfying the condition.
    'path.<locale>' additionally restricts the locale.
"

/-- Order-by statements. -/
def orderBy : String :=
  "ORDER - Order-By Statements

  field [asc|desc], builtin [asc|desc], ...

    Example:
      cmsfilter order \"title.de desc, published\"

    Constraints:
      - Direction defaults to ASC
      - Wildcards are not allowed
"

/-- The text of a page. -/
def text : Page → String
  | .conditions => conditions
  | .operators => operators
  | .values => values
  | .paths => paths
  | .orderBy => orderBy

end Manual
end ContentFilter
