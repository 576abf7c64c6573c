/-!
# Blanks, and cutting texts at them

The blank characters are those with the property White_Space.  Texts are cut as lists of
characters: `trim` takes the blanks off both ends, and `splitOn` cuts at a separator and gives
the parts back in order, empty ones included.
-/

namespace ContentFilter
namespace Text

/-- Blank characters. -/
def isBlank (c : Char) : Bool :=
  let n := c.toNat
  (0x09 ≤ n && n ≤ 0x0D) || n = 0x20 || n = 0x85 || n = 0xA0 || n = 0x1680 ||
    (0x2000 ≤ n && n ≤ 0x200A) || n = 0x2028 || n = 0x2029 || n = 0x202F || n = 0x205F ||
    n = 0x3000

/-- A text without the blanks it ends with. -/
def trimEnd (cs : List Char) : List Char :=
  (cs.reverse.dropWhile isBlank).reverse

/-- A text without the blanks at its ends. -/
def trim (cs : List Char) : List Char :=
  trimEnd (cs.dropWhile isBlank)

/-- The parts of a text between the occurrences of a separator.  There is always at least one. -/
abbrev splitOn (sep : Char) (cs : List Char) : List (List Char) := cs.splitOn sep

end Text
end ContentFilter
