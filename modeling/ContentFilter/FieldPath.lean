import ContentFilter.Text.Blank
import ContentFilter.Text.Numeral
/-!
# Field paths

A field path names a value inside the content of a node.  Its parts are separated by dots: the
name of the field, then segments that lead into the value of the field, and at the end perhaps a
wildcard that stands for any member of an object (`*`) or any element of an array (`?`).  The
content holds each field as an object whose member `value` is the value of the field, so the keys
of a field path are its name, the key `value`, and its segments (`FieldPath.keys`).
-/

namespace ContentFilter

open Text

/-- The wildcards a field path may end with. -/
inductive Wildcard where
  /-- Any member of an object. -/
  | any
  /-- Any element of an array. -/
  | element
deriving DecidableEq, Repr

/-- A path to a value in the content of a node. -/
structure FieldPath where
  /-- The name of the field. -/
  name : String
  /-- The keys that lead into the value of the field. -/
  segments : List String
  /-- Whether the path stands for all members or elements of what it leads to. -/
  wildcard : Option Wildcard
deriving DecidableEq, Repr

namespace FieldPath

/-- Split the last part off if it is a wildcard. -/
def splitWildcard (parts : List (List Char)) : List (List Char) × Option Wildcard :=
  match parts.getLast? with
  | some ['*'] => (parts.dropLast, some .any)
  | some ['?'] => (parts.dropLast, some .element)
  | _ => (parts, none)

/-- A name of a field or a segment: a letter, a numeral or an underscore, then name
characters. -/
def isSegment : List Char → Bool
  | [] => false
  | c :: r => (isAlnum c || c = '_') && (c :: r).all isNameChar

/-- The path that a text writes, if it writes one.  The name of the field begins with a
letter. -/
def ofText? (text : String) : Option FieldPath :=
  match splitWildcard (splitOn '.' text.toList) with
  | ([], _) => none
  | (name :: segments, wildcard) =>
    if name.head?.any isLetter && (name :: segments).all isSegment then
      some ⟨String.ofList name, segments.map String.ofList, wildcard⟩
    else none

/-- Whether the path is the name of a field alone. -/
def isPlain (f : FieldPath) : Bool := f.segments.isEmpty && f.wildcard.isNone

/-- The keys that lead from the content of a node to the value, or to the object or array whose
members or elements the path stands for. -/
def keys (f : FieldPath) : List String := f.name :: "value" :: f.segments

end FieldPath
end ContentFilter
