import ContentFilter.Token
/-!
# Diagnostics

A refusal names its cause and, where it concerns a stretch of the source, points at it.  The
pointer is drawn as a diagram of two lines: the source, and below it a row of carets, one for
each character of the stretch and at least one.
-/

namespace ContentFilter

/-- The place in the source that a refusal concerns. -/
inductive Mark where
  /-- A stretch of the source. -/
  | span (span : Span)
  /-- The position behind the last character. -/
  | sourceEnd
  /-- No place in particular. -/
  | nowhere
deriving DecidableEq, Repr

/-- A cause together with the place it concerns. -/
structure Flagged (γ : Type) where
  /-- What is wrong. -/
  cause : γ
  /-- Where it is wrong. -/
  mark : Mark
deriving DecidableEq, Repr

/-- The same place with another account of the cause. -/
def Flagged.map {γ δ : Type} (f : γ → δ) (e : Flagged γ) : Flagged δ :=
  ⟨f e.cause, e.mark⟩

/-- A diagram that points into a source text. -/
structure Pointer where
  /-- The text that is shown. -/
  source : String
  /-- The number of characters before the first caret. -/
  indent : Nat
  /-- The number of carets. -/
  width : Nat
deriving DecidableEq, Repr

namespace Pointer

/-- The diagram that underlines a stretch of the source with at least one caret. -/
def ofSpan (source : String) (span : Span) : Pointer :=
  ⟨source, span.start, max span.len 1⟩

/-- The diagram that points behind the last character of the source. -/
def atEnd (source : String) : Pointer := ⟨source, source.length, 1⟩

/-- The diagram as text, set off from what precedes it by an empty line. -/
def text (p : Pointer) : String :=
  "\n\nQuery: " ++ p.source ++ "\n       " ++
    String.ofList (List.replicate p.indent ' ' ++ List.replicate p.width '^')

end Pointer

/-- The diagram for a place in the source, if there is a place to point at. -/
def Mark.pointer? (source : String) : Mark → Option Pointer
  | span s => some (Pointer.ofSpan source s)
  | sourceEnd => some (Pointer.atEnd source)
  | nowhere => none

/-- A message with an optional diagram. -/
structure Diagnostic where
  /-- What is wrong, in words. -/
  summary : String
  /-- Where it is wrong. -/
  pointer : Option Pointer
deriving DecidableEq, Repr

/-- The message followed by its diagram. -/
def Diagnostic.text (d : Diagnostic) : String :=
  match d.pointer with
  | some p => d.summary ++ p.text
  | none => d.summary

end ContentFilter
