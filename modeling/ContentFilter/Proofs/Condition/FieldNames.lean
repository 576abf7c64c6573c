import ContentFilter.Proofs.Condition.Names
import ContentFilter.Proofs.Token.Identifier
/-!
# Names and field paths are the same texts

Two parts of the library decide what a name is.  A field path is read by cutting the text at its dots
and checking the parts, a token by going along the characters and looking ahead at the dots.  They
accept the same texts: a text is a field path exactly if it is a name of the grammar of lexemes
(`FieldPath.exists_ofText?_iff_name`), and so exactly if a name is all that the scanner finds in it,
whatever the builtins are (`FieldPath.ofText?_iff_ofSource`).
-/

namespace ContentFilter

open Text
open Lexeme (Name NameTail nameKinds)

/-- What a separator joins is the first part, and the others with a separator in front of each. -/
lemma Text.intercalate_cons (sep : Char) (part : List Char) (parts : List (List Char)) :
    [sep].intercalate (part :: parts) = part ++ parts.flatMap (sep :: ·) := by
  induction parts generalizing part with
  | nil => simp
  | cons next parts ih =>
    rw [List.intercalate_cons_cons, ih, List.flatMap_cons]
    simp

/-! ## The tail of a name, part by part -/

variable {cs tail : List Char} {parts : List (List Char)}

lemma Lexeme.NameTail.append_chars (hcs : ∀ c ∈ cs, isNameChar c = true) (htail : NameTail tail) :
    NameTail (cs ++ tail) := by
  induction cs with
  | nil => exact htail
  | cons c cs ih =>
    obtain ⟨hc, hcs⟩ := List.forall_mem_cons.1 hcs
    exact .char hc (ih hcs)

lemma Lexeme.NameTail.append_segments
    (hparts : ∀ part ∈ parts, FieldPath.isSegment part = true) (htail : NameTail tail) :
    NameTail (parts.flatMap ('.' :: ·) ++ tail) := by
  induction parts with
  | nil => exact htail
  | cons part parts ih =>
    obtain ⟨hpart, hrest⟩ := List.forall_mem_cons.1 hparts
    obtain ⟨c, r, rfl, hstart, hr⟩ := FieldPath.exists_of_isSegment hpart
    rw [List.flatMap_cons, List.append_assoc]
    exact .segment hstart (.append_chars hr (ih hrest))

namespace FieldPath

variable {s : String} {f : FieldPath}

lemma nameTail_wildcardParts (w : Option Wildcard) :
    NameTail ((wildcardParts w).flatMap ('.' :: ·)) := by
  cases w with
  | none => exact .nil
  | some w => cases w <;> exact .wildcard (by decide)

/-- A path is written as a name. -/
lemma WellFormed.name_text (h : f.WellFormed) : Name f.text := by
  have htext : f.text = f.name.toList ++ ((f.segments.map String.toList).flatMap ('.' :: ·) ++
      (wildcardParts f.wildcard).flatMap ('.' :: ·)) := by
    rw [text, List.map_cons, List.cons_append, intercalate_cons, List.flatMap_append]
  obtain ⟨hname, hsegments⟩ := List.forall_mem_cons.1 h.isSegment
  have htail : NameTail ((f.segments.map String.toList).flatMap ('.' :: ·) ++ _) :=
    .append_segments (by simpa) (nameTail_wildcardParts f.wildcard)
  obtain ⟨c, r, hcs, -, hr⟩ := exists_of_isSegment hname
  have hletter := h.isLetter_head
  rw [hcs] at hletter
  rw [htext, hcs]
  exact .letter (by simpa using hletter) (htail.append_chars hr)

/-- A text is a field path exactly if it is a name. -/
theorem exists_ofText?_iff_name : (∃ f, ofText? s = some f) ↔ Name s.toList := by
  constructor
  · rintro ⟨f, hf⟩
    obtain ⟨hwell, htext⟩ := ofText?_eq_some hf
    exact htext ▸ hwell.name_text
  · intro hname
    obtain ⟨f, hf, -⟩ := exists_ofText? hname
    exact ⟨f, hf⟩

/-- A text is a field path exactly if its only token is a name that covers it.  The parts of the
path, joined by dots, are then the text. -/
theorem ofText?_iff_ofSource (b : Builtins) (s : String) :
    ((∃ f, ofText? s = some f) ↔
      ∃ t, Token.ofSource b s = .ok [t] ∧ t.kind ∈ nameKinds ∧ t.span = ⟨0, s.toList.length⟩) ∧
    ∀ f, ofText? s = some f →
      ['.'].intercalate ((f.name :: f.segments).map String.toList ++ wildcardParts f.wildcard) =
        s.toList := by
  refine ⟨exists_ofText?_iff_name.trans ⟨fun hname => ?_, ?_⟩, fun f hf => ?_⟩
  · exact ⟨_, Token.ofSource_of_name b hname, Lexeme.classify_mem b s.toList, rfl⟩
  · rintro ⟨t, ht, hk, hspan⟩
    exact ((Token.ofSource_eq_ok_iff_tiled.1 ht).name_of_whole hspan hk).1
  · exact (ofText?_eq_some hf).2.symm

end FieldPath
end ContentFilter
