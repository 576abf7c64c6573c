import ContentFilter.Scalar
import ContentFilter.Table
import ContentFilter.Text.Numeral
/-!
# Placeholders and the sink

A placeholder is a colon and a name, and the names are a stem with a running number behind it:
`:p0`, `:p1`, and so on.  A counter hands out the names of one stem; a sink binds values to them
as they come and keeps the bindings.  Fragments that share a sink never share a name; fragments
that are compiled apart are kept apart by different stems.
-/

namespace ContentFilter

open Text

/-- The stem of placeholder names: a plain name. -/
structure Stem where
  /-- The text of the stem. -/
  name : String
  /-- The text is a plain name. -/
  isPlainName : isPlainName name.toList = true
deriving DecidableEq, Repr

namespace Stem

/-- The stem used where none is chosen. -/
def default : Stem := ⟨"p", by decide⟩

instance : Inhabited Stem := ⟨default⟩

/-- The stem with this name, if it can be one. -/
def ofName? (name : String) : Option Stem :=
  if h : Text.isPlainName name.toList = true then some ⟨name, h⟩ else none

end Stem

/-- Hands out placeholder names. -/
structure Counter where
  /-- What the names begin with. -/
  stem : Stem
  /-- The number in the next name. -/
  next : Nat
deriving DecidableEq, Repr

namespace Counter

/-- A counter of a stem before its first name. -/
def ofStem (stem : Stem) : Counter := ⟨stem, 0⟩

/-- The name with a given number. -/
def nameAt (stem : Stem) (n : Nat) : String := stem.name ++ toString n

/-- The next name. -/
def name (c : Counter) : String := nameAt c.stem c.next

/-- The counter behind its next name. -/
def succ (c : Counter) : Counter := ⟨c.stem, c.next + 1⟩

end Counter

/-- Values bound to placeholders. -/
structure Sink where
  /-- Gives the names. -/
  counter : Counter
  /-- The bindings, keyed by name. -/
  values : Table Scalar
deriving Repr

namespace Sink

/-- A sink without bindings whose names come from a counter. -/
def ofCounter (c : Counter) : Sink := ⟨c, .empty⟩

/-- A sink without bindings whose names begin with a stem. -/
def ofStem (stem : Stem) : Sink := ofCounter (.ofStem stem)

instance : Inhabited Sink := ⟨ofStem .default⟩

/-- Bind a value to the next name, and give its placeholder. -/
def add (s : Sink) (v : Scalar) : String × Sink :=
  (":" ++ s.counter.name, ⟨s.counter.succ, s.values.insert s.counter.name v⟩)

/-- The value bound to a name. -/
def get? (s : Sink) (name : String) : Option Scalar := s.values.find? name

/-- The number of bindings. -/
def size (s : Sink) : Nat := s.values.size

/-- Whether nothing is bound. -/
def isEmpty (s : Sink) : Bool := s.values.isEmpty

/-- The value just added is bound to the name it was given. -/
theorem get?_add (s : Sink) (v : Scalar) : (s.add v).2.get? s.counter.name = some v := by
  simp [add, get?]

end Sink
end ContentFilter
