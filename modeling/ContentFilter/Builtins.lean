import ContentFilter.Table
/-!
# Builtins

A builtin is a name that stands for an SQL column, such as `published` for `n.published`.  The
builtins of a query context are a table from the names to the columns; a name that is registered
again takes the later column.
-/

namespace ContentFilter

/-- The columns that builtin names stand for. -/
abbrev Builtins := Table String

namespace Builtins

/-- The column of a builtin, if the name is one. -/
def column? (b : Builtins) (name : String) : Option String := Table.find? b name

/-- A name is a builtin exactly if it has a column. -/
theorem contains_eq_isSome (b : Builtins) (name : String) :
    b.contains name = (b.column? name).isSome := rfl

/-- What holds of a column holds of all columns, if it is the only one. -/
theorem forall_column_of_single {P : String → Prop} {name column : String} (h : P column) :
    ∀ key x, column? (Table.empty.insert name column) key = some x → P x := by
  intro key x hx
  rw [column?, Table.find?_insert, Table.find?_empty] at hx
  split at hx
  · exact Option.some.inj hx ▸ h
  · cases hx

end Builtins
end ContentFilter
