import ContentFilter.Proofs.Text.Cutting
import ContentFilter.Proofs.Token.Reserved
import ContentFilter.Proofs.Token.Spacing
/-!
# Texts that are names as a whole

A text that begins with a letter and goes on with the characters of names is one name or none: if
something other than a name follows, no lexeme ends inside of the text, and none reaches over its
end.  So such a text begins a source exactly if it is a name, and then it is the first token of it
(`Token.tiled_name_append_iff`).
-/

namespace ContentFilter

open Text

namespace Lexeme

variable {b : Builtins} {word rest rest' text : List Char} {k : Kind}

/-- The characters that names are made of. -/
def inName (c : Char) : Bool := isNameChar c || c = '.' || isWildcard c

lemma endsName_iff_inName : EndsName rest ↔ ∀ c ∈ rest.head?, inName c = false := by
  simp [EndsName, inName, and_assoc]

lemma NameTail.forall_inName (h : NameTail word) : ∀ c ∈ word, inName c = true := by
  induction h with
  | nil => simp
  | char hc _ ih => exact List.forall_mem_cons.2 ⟨by simp [inName, hc], ih⟩
  | segment hc _ ih =>
    exact List.forall_mem_cons.2
      ⟨by simp [inName], List.forall_mem_cons.2 ⟨by simp [inName, isNameChar_of_segment hc], ih⟩⟩
  | wildcard hc => simp [inName, hc]

lemma Name.forall_inName (h : Name word) : ∀ c ∈ word, inName c = true := by
  cases h with
  | letter hc htail => exact List.forall_mem_cons.2 ⟨by simp [inName, isNameChar, isAlnum, hc],
      htail.forall_inName⟩

lemma Name.head_isLetter (h : Name word) : word.head?.any isLetter = true := by
  cases h with
  | letter hc _ => simpa using hc

/-- No gap is made of the characters of names. -/
lemma not_isGap_of_inName {c : Char} (h : inName c = true) : isGap c = false := by
  by_contra hgap
  have hends : EndsName [c] := endsName_of_startsGap (by simpa [StartsGap] using hgap)
  rw [endsName_iff_inName.1 hends c rfl] at h
  cases h

/-- A name is the longest text of its characters there. -/
lemma takeWhile_inName (hword : ∀ c ∈ word, inName c = true) (hrest : EndsName rest) :
    (word ++ rest).takeWhile inName = word :=
  (span_append hword (endsName_iff_inName.1 hrest)).1

/-- A lexeme that begins with a letter is a name. -/
lemma Begins.name_of_isLetter (h : Begins b word rest k text)
    (hletter : word.head?.any isLetter = true) :
    Name word ∧ EndsName rest ∧ k = classify b word ∧ text = word := by
  have hspelled : ∀ {j : Kind}, j.group ≠ .operand → ¬j.symbol.toList.head?.any isLetter = true := by
    intro j hj
    obtain ⟨c, r, hc, -, -, hnot, -⟩ := head_symbol (mem_spelled hj)
    simp [hc, hnot]
  cases h with
  | delimiter hmem =>
    simp only [List.mem_cons, List.not_mem_nil, or_false] at hmem
    rcases hmem with rfl | rfl | rfl | rfl <;> exact absurd hletter (hspelled (by decide))
  | connective hmem _ =>
    simp only [List.mem_cons, List.not_mem_nil, or_false] at hmem
    rcases hmem with rfl | rfl <;> exact absurd hletter (hspelled (by decide))
  | operator _ => exact absurd hletter (hspelled (j := .operator _) (by simp [Kind.group]))
  | number hnumber _ =>
    have hhead := hnumber.head
    cases word with
    | nil => simp at hletter
    | cons c r =>
      have hletter : isLetter c = true := by simpa using hletter
      have hnumber : c = '-' ∨ c.isDigit = true := by simpa using hhead
      rcases hnumber with rfl | hdigit
      · exact absurd hletter (by decide)
      · rw [isLetter_of_isDigit hdigit] at hletter
        cases hletter
  | name hname hends => exact ⟨hname, hends, rfl, rfl⟩
  | string hquote _ => simp [not_isLetter_of_isQuote hquote] at hletter

end Lexeme

namespace Token

open Lexeme

variable {b : Builtins} {n : Nat} {name rest : List Char} {ts : List Token}

/-- A text of the characters of names that begins with a letter can only be a name. -/
lemma tiled_name_append_iff (hletter : name.head?.any isLetter = true)
    (hname : ∀ c ∈ name, inName c = true) (hrest : EndsName rest) :
    Tiled b n (name ++ rest) ts ↔
      Name name ∧ ∃ us, ts = plain (classify b name) ⟨n, name.length⟩ (String.ofList name) :: us ∧
        Tiled b (n + name.length) rest us := by
  constructor
  · intro h
    generalize hcs : name ++ rest = cs at h
    have hhead : cs.head?.any isLetter = true := by
      cases name with
      | nil => simp at hletter
      | cons c r => simpa [← hcs] using hletter
    cases h with
    | finish => simp at hhead
    | @gap n c r ts hgap _ =>
      have hc : isLetter c = true := by simpa using hhead
      rcases isGap_iff.1 hgap with hblank | rfl
      · rw [not_isBlank (.inl hc)] at hblank
        cases hblank
      · exact absurd hc (by decide)
    | @lexeme n word rest' text k ts hbegins htail =>
      obtain ⟨hword, hends, rfl, rfl⟩ := hbegins.name_of_isLetter (by
        obtain ⟨c, r, rfl, -⟩ := hbegins.exists_cons
        simpa using hhead)
      -- both are the longest text of the characters of names there
      have hwords := congrArg (List.takeWhile inName) hcs
      rw [takeWhile_inName hname hrest, takeWhile_inName hword.forall_inName hends] at hwords
      subst hwords
      obtain rfl := List.append_cancel_left hcs
      exact ⟨hword, _, rfl, htail⟩
  · rintro ⟨hname, us, rfl, htail⟩
    exact .lexeme (.name hname hrest) htail

lemma endsName_nil : EndsName [] := by simp [EndsName]

/-- A source of the characters of names that begins with a letter has tokens exactly if it is a
name, and then it is its only token. -/
theorem ofSource_name_iff {source : String} (hletter : source.toList.head?.any isLetter = true)
    (hname : ∀ c ∈ source.toList, inName c = true) :
    ofSource b source = .ok ts ↔ Name source.toList ∧
      ts = [plain (classify b source.toList) ⟨0, source.toList.length⟩ source] := by
  have happend : Tiled b 0 (source.toList ++ []) ts ↔ _ :=
    tiled_name_append_iff hletter hname endsName_nil
  rw [List.append_nil] at happend
  rw [ofSource_eq_ok_iff_tiled, happend, String.ofList_toList]
  refine and_congr_right fun _ => ⟨?_, ?_⟩
  · rintro ⟨us, rfl, htail⟩
    rw [htail.unique (.finish _)]
  · rintro rfl
    exact ⟨[], rfl, .finish _⟩

lemma ofSource_of_name (b : Builtins) {source : String} (h : Name source.toList) :
    ofSource b source = .ok [plain (classify b source.toList) ⟨0, source.toList.length⟩ source] :=
  (ofSource_name_iff h.head_isLetter h.forall_inName).2 ⟨h, rfl⟩

/-- A token of one of the kinds of names that covers its source is the source. -/
lemma Tiled.name_of_whole {cs : List Char} {t : Token} (h : Tiled b 0 cs [t])
    (hspan : t.span = ⟨0, cs.length⟩) (hk : t.kind ∈ nameKinds) :
    Name cs ∧ t = plain (classify b cs) ⟨0, cs.length⟩ (String.ofList cs) := by
  cases h with
  | gap _ htail =>
    have hstart := (htail.tiles.inside t (List.mem_singleton_self t)).1
    rw [hspan] at hstart
    cases hstart
  | @lexeme n word rest text k ts hbegins _ =>
    obtain ⟨hname, rfl, rfl⟩ := hbegins.of_name hk
    obtain rfl : rest = [] := by
      have hlen := congrArg Span.len hspan
      simpa [plain] using hlen
    simpa using hname

end Token
end ContentFilter
