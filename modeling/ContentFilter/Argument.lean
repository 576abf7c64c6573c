/-!
# Arguments of the command line

What an argument is can be told from its spelling alone.  Two hyphens in front make it a long
option, which may carry a value behind an equals sign; one hyphen makes it a group of short
options, each a single letter; two hyphens and nothing else end the options.  All other arguments
are texts, a lone hyphen and the empty argument among them.
-/

namespace ContentFilter

/-- An argument by its spelling. -/
inductive Argument where
  /-- The end of the options: all later arguments are texts. -/
  | divider
  /-- A long option and the value that it carries. -/
  | long (name : String) (value : Option String)
  /-- What stands behind a single hyphen. -/
  | short (letters : List Char)
  /-- A text. -/
  | text (content : String)
deriving DecidableEq, Repr

namespace Argument

/-- The argument with a spelling.  Of several equals signs the first one sets off the value. -/
def ofString (s : String) : Argument :=
  match s.toList with
  | ['-', '-'] => divider
  | '-' :: '-' :: cs =>
    match cs.dropWhile (· ≠ '=') with
    | [] => long (String.ofList cs) none
    | _ :: value => long (String.ofList (cs.takeWhile (· ≠ '='))) (some (String.ofList value))
  | '-' :: c :: cs => short (c :: cs)
  | _ => text s

/-- An argument without a hyphen in front is a text. -/
theorem ofString_eq_text {s : String} (h : s.toList.head? ≠ some '-') : ofString s = text s := by
  unfold ofString
  split
  · next heq => exact absurd (congrArg List.head? heq) h
  · next heq => exact absurd (congrArg List.head? heq) h
  · next heq => exact absurd (congrArg List.head? heq) h
  · rfl

/-- The texts among arguments that hold no options. -/
def texts? : List String → Option (List String)
  | [] => some []
  | arg :: r =>
    match ofString arg with
    | divider => some r
    | text s => (texts? r).map (s :: ·)
    | long _ _ | short _ => none

end Argument
end ContentFilter
