import ContentFilter.Cause
/-!
# Bracketed runs

The elements of a list stand between brackets, and a token sequence is read on with each
bracketed run folded into one token of kind `list`: it spans the run from bracket to bracket and
has the elements as its items.  Lists are not nested, not empty, and hold scalars only.  Behind
the folding no bracket is left.
-/

namespace ContentFilter
namespace Token

/-- The characters of a source in a stretch of it. -/
def slice (source : String) (s : Span) : String :=
  String.ofList ((source.toList.drop s.start).take s.len)

/-- A fault at a token. -/
def flag {γ : Type} (t : Token) (cause : γ) : Flagged γ := ⟨cause, .span t.span⟩

/-- An open bracket with the elements read since, the last one first. -/
structure OpenList where
  /-- The opening bracket. -/
  bracket : Token
  /-- The elements so far, the last one first. -/
  read : List Token

/-- The list that a closing bracket makes of an open one. -/
def OpenList.close (source : String) (o : OpenList) (close : Token) :
    Except (Flagged ListCause) Token :=
  let span := o.bracket.span.upTo close.span
  if o.read.isEmpty then .error ⟨.empty, .span span⟩
  else .ok (ofItems span (slice source span) o.read.reverse)

/-- An open list with one more element. -/
def OpenList.push (o : OpenList) (t : Token) : Except (Flagged ListCause) OpenList :=
  if t.group ≠ .operand then .error (t.flag .notAValue)
  else if !t.kind.isScalar then .error (t.flag .notAScalar)
  else .ok ⟨o.bracket, t :: o.read⟩

/-- Fold the bracketed runs of a token sequence, given the list that is open before it. -/
def foldFrom (source : String) :
    Option OpenList → List Token → Except (Flagged ListCause) (List Token)
  | none, [] => .ok []
  | some o, [] => .error (o.bracket.flag .unclosed)
  | opened, t :: r =>
    match t.group, opened with
    | .leftBracket, some _ => .error (t.flag .nested)
    | .leftBracket, none => foldFrom source (some ⟨t, []⟩) r
    | .rightBracket, none => .error (t.flag .unmatchedClose)
    | .rightBracket, some o => do
      let list ← o.close source t
      let tail ← foldFrom source none r
      return list :: tail
    | _, some o => do
      let o ← o.push t
      foldFrom source (some o) r
    | _, none => do
      let tail ← foldFrom source none r
      return t :: tail

/-- Fold the bracketed runs of a token sequence into lists. -/
def foldBrackets (source : String) (ts : List Token) :
    Except (Flagged ListCause) (List Token) :=
  foldFrom source none ts

/-- Fold the bracketed runs of the tokens of a source into lists, or refuse the source. -/
def foldLists (source : String) (ts : List Token) : Except ParseError (List Token) :=
  (foldBrackets source ts).mapError fun e => .inSource source (e.map .list)

end Token
end ContentFilter
