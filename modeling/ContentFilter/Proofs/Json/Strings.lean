import ContentFilter.Json.Read
import ContentFilter.Proofs.Table
import Mathlib.Tactic.SplitIfs
/-!
# Objects of strings are read back

A JSON string is read back as the text it was written from (`Json.stringBody_flatMap_escape`): each
character is, whether it is escaped or not.  So the text of an object whose values are strings is
read as this object (`Json.read?_text_ofStrings`), in any layout that puts nothing but JSON blanks
between the symbols.
-/

namespace ContentFilter

namespace Json

variable {c : Char} {cs r : List Char} {ts : List Symbol} {l : Layout}

/-! ## Strings -/

lemma hexValue?_hexDigit {n : Nat} (h : n < 16) : hexValue? (hexDigit n) = some n := by
  have hall : ∀ n < 16, hexValue? (hexDigit n) = some n := by decide
  exact hall n h

/-- A character written by its code is read as itself. -/
lemma stringBody_code {a b : Char} {n : Nat} (hn : n < 32)
    (hcode : hex4? '0' '0' a b = some n) (r : List Char) :
    stringBody ('\\' :: 'u' :: '0' :: '0' :: a :: b :: r) =
      (stringBody r).map fun p => (Char.ofNat n :: p.1, p.2) := by
  have hhigh : isHighSurrogate n = false := by
    simp only [isHighSurrogate, Bool.and_eq_false_iff, decide_eq_false_iff_not]
    omega
  have hlow : isLowSurrogate n = false := by
    simp only [isLowSurrogate, Bool.and_eq_false_iff, decide_eq_false_iff_not]
    omega
  -- what follows may be the code of another character, which is looked at together with this one
  rw [stringBody.eq_def]
  split
  · next heq => cases heq
  · next heq => cases heq
  · next heq =>
    cases heq
    simp only [hcode, hhigh, hlow, Option.pure_def, Option.bind_eq_bind, Option.bind_some,
      Bool.false_eq_true, if_false]
    exact Option.map_eq_bind.symm
  · next heq =>
    cases heq
    simp only [hcode, hhigh, hlow, Bool.or_self, Option.pure_def, Option.bind_eq_bind,
      Option.bind_some, Bool.false_eq_true, if_false]
    exact Option.map_eq_bind.symm
  · next hother heq =>
    cases heq
    exact absurd rfl (hother _ _ _ _ _ rfl)
  · next hother heq =>
    cases heq
    exact absurd rfl (hother _ _ rfl)

/-- A character that stands for itself. -/
lemma stringBody_plain (hquote : c ≠ '"') (hback : c ≠ '\\') (hcontrol : ¬c.toNat < 32)
    (r : List Char) : stringBody (c :: r) = (stringBody r).map fun p => (c :: p.1, p.2) := by
  rw [stringBody.eq_def]
  split
  · next heq => cases heq
  · next heq =>
    cases heq
    exact absurd rfl hquote
  · next heq =>
    cases heq
    exact absurd rfl hback
  · next heq =>
    cases heq
    exact absurd rfl hback
  · next heq =>
    cases heq
    exact absurd rfl hback
  · next heq =>
    cases heq
    rw [if_neg (by simp [hback, hcontrol])]
    exact Option.map_eq_bind.symm

/-- A backslash and a letter other than `u` stand for one character. -/
lemma stringBody_letter {d : Char} (hd : d ≠ 'u') (hletter : unescape? d = some c) (r : List Char) :
    stringBody ('\\' :: d :: r) = (stringBody r).map fun p => (c :: p.1, p.2) := by
  rw [stringBody.eq_def]
  split
  · next heq => cases heq
  · next heq => cases heq
  · next heq =>
    cases heq
    exact absurd rfl hd
  · next heq =>
    cases heq
    exact absurd rfl hd
  · next heq =>
    cases heq
    simp only [hletter, Option.pure_def, Option.bind_eq_bind, Option.bind_some]
    exact Option.map_eq_bind.symm
  · next hother heq =>
    cases heq
    exact absurd rfl (hother _ _ rfl)

/-- An escaped character is read as itself. -/
lemma stringBody_escape (c : Char) (r : List Char) :
    stringBody (escape c ++ r) = (stringBody r).map fun p => (c :: p.1, p.2) := by
  unfold escape
  split_ifs with hquote hback hnewline hreturn htab hb hf hcontrol
  · subst hquote
    exact stringBody_letter (by decide) (by decide) r
  · subst hback
    exact stringBody_letter (by decide) (by decide) r
  · subst hnewline
    exact stringBody_letter (by decide) (by decide) r
  · subst hreturn
    exact stringBody_letter (by decide) (by decide) r
  · subst htab
    exact stringBody_letter (by decide) (by decide) r
  · have hc : c = Char.ofNat 8 := by rw [← hb, Char.ofNat_toNat]
    subst hc
    exact stringBody_letter (by decide) (by decide) r
  · have hc : c = Char.ofNat 12 := by rw [← hf, Char.ofNat_toNat]
    subst hc
    exact stringBody_letter (by decide) (by decide) r
  · have hcode : hex4? '0' '0' (hexDigit (c.toNat / 16)) (hexDigit (c.toNat % 16)) =
        some c.toNat := by
      have hzero : hexValue? '0' = some 0 := by decide
      rw [hex4?, hzero, hexValue?_hexDigit (by omega), hexValue?_hexDigit (by omega)]
      exact congrArg some (by omega)
    have hbody := stringBody_code hcontrol hcode r
    rwa [Char.ofNat_toNat] at hbody
  · exact stringBody_plain hquote hback hcontrol r

/-- A string is read back up to its closing quote. -/
lemma stringBody_flatMap_escape (cs r : List Char) :
    stringBody (cs.flatMap escape ++ '"' :: r) = some (cs, r) := by
  induction cs with
  | nil => rw [List.flatMap_nil, List.nil_append, stringBody]
  | cons c cs ih =>
    rw [List.flatMap_cons, List.append_assoc, stringBody_escape, ih, Option.map_some]

/-! ## Symbols -/

/-- The text is made of the symbols. -/
def CutInto (cs : List Char) (ts : List Symbol) : Prop :=
  ∀ bound, cs.length ≤ bound → symbols? bound cs = some ts

lemma cutInto_nil : CutInto [] [] := fun bound _ => by cases bound <;> rfl

lemma CutInto.cons (h : CutInto r ts) {us : List Symbol}
    (hstep : ∀ bound, r.length ≤ bound → symbols? bound r = some ts →
      symbols? (bound + 1) (c :: r) = some us) : CutInto (c :: r) us := by
  intro bound hbound
  rw [List.length_cons] at hbound
  obtain ⟨bound, rfl⟩ := Nat.exists_eq_add_one_of_ne_zero (Nat.ne_zero_of_lt hbound)
  have hr : r.length ≤ bound := Nat.le_of_succ_le_succ hbound
  exact hstep bound hr (h bound hr)

lemma CutInto.blanks (h : CutInto r ts) (hcs : ∀ c ∈ cs, isBlank c = true) :
    CutInto (cs ++ r) ts := by
  induction cs with
  | nil => exact h
  | cons c cs ih =>
    obtain ⟨hc, hcs⟩ := List.forall_mem_cons.1 hcs
    exact (ih hcs).cons fun bound _ hr => by rw [symbols?, if_pos hc, hr]

lemma CutInto.mark (h : CutInto r ts) (hmark : isMark c = true) :
    CutInto (c :: r) (.mark c :: ts) := by
  have hblank : ¬isBlank c = true := by
    intro hblank
    simp only [isBlank, Bool.or_eq_true, decide_eq_true_eq] at hblank
    rcases hblank with ((rfl | rfl) | rfl) | rfl <;> revert hmark <;> decide
  exact h.cons fun bound _ hr => by rw [symbols?, if_neg hblank, if_pos hmark, hr]; rfl

lemma CutInto.string (h : CutInto r ts) (s : String) :
    CutInto (stringText s ++ r) (.atom (.string s) :: ts) := by
  intro bound hbound
  have htext : stringText s ++ r = '"' :: (s.toList.flatMap escape ++ '"' :: r) := by
    simp [stringText]
  rw [htext] at hbound ⊢
  rw [List.length_cons, List.length_append, List.length_cons] at hbound
  obtain ⟨bound, rfl⟩ := Nat.exists_eq_add_one_of_ne_zero (Nat.ne_zero_of_lt hbound)
  have hatom : atom? '"' (s.toList.flatMap escape ++ '"' :: r) = some (.string s, r) := by
    rw [atom?, if_pos rfl, stringBody_flatMap_escape, Option.map_some, String.ofList_toList]
  have hr : r.length ≤ bound := by omega
  rw [symbols?, if_neg (by decide), if_neg (by decide), hatom]
  simp [h bound hr]

/-! ## Objects -/

/-- The object that has the entries of a table as its members. -/
def ofStrings (t : Table String) : Json := .object (t.map string).toList

/-- The symbols of a member. -/
def memberSymbols (e : String × String) : List Symbol :=
  [.atom (.string e.1), .mark ':', .atom (.string e.2)]

/-- The symbols of the members that stand behind another one. -/
def furtherSymbols (es : List (String × String)) : List Symbol :=
  es.flatMap fun e => .mark ',' :: memberSymbols e

/-- The layout puts blanks between the symbols, if anything. -/
def Layout.IsBlank (l : Layout) : Prop :=
  (∀ depth, ∀ c ∈ l.newline depth, isBlank c = true) ∧ ∀ c ∈ l.space, isBlank c = true

/-- A member and what follows it. -/
lemma CutInto.member (hl : l.IsBlank) (depth : Nat) (h : CutInto r ts) (e : String × String) :
    CutInto (stringText e.1 ++ ':' :: l.space ++ render l depth (.string e.2) ++ r)
      (memberSymbols e ++ ts) := by
  have hvalue : CutInto (':' :: (l.space ++ (stringText e.2 ++ r)))
      (.mark ':' :: .atom (.string e.2) :: ts) :=
    ((h.string e.2).blanks hl.2).mark (by decide)
  have hkey := hvalue.string e.1
  rw [render]
  simpa [memberSymbols] using hkey

lemma CutInto.members (hl : l.IsBlank) (depth : Nat) (h : CutInto r ts)
    (es : List (String × String)) :
    CutInto (renderMembers l depth (es.map fun e => (e.1, .string e.2)) ++ r)
      (furtherSymbols es ++ ts) := by
  induction es with
  | nil => exact h
  | cons e es ih =>
    have hmember := ((CutInto.member hl depth ih e).blanks (hl.1 depth)).mark
      (show isMark ',' = true by decide)
    simpa [renderMembers, furtherSymbols] using hmember

lemma member?_memberSymbols (depth : Nat) (e : String × String) (ts : List Symbol) :
    member? (value? depth) (memberSymbols e ++ ts) = some ((e.1, .string e.2), ts) := by
  have hvalue : value? depth (.atom (.string e.2) :: ts) = some (.string e.2, ts) := by rw [value?]
  simp [memberSymbols, member?, hvalue]

/-- The members of an object are read one after the other, up to the closing brace. -/
lemma sequence?_members (depth : Nat) (e : String × String) {es : List (String × String)}
    {bound : Nat} (hbound : es.length < bound) (ts : List Symbol) :
    sequence? (member? (value? depth)) '\x7d' bound
      (memberSymbols e ++ (furtherSymbols es ++ .mark '\x7d' :: ts)) =
      some ((e :: es).map fun e => (e.1, .string e.2), ts) := by
  induction es generalizing e bound with
  | nil =>
    obtain ⟨bound, rfl⟩ := Nat.exists_eq_add_of_lt hbound
    rw [sequence?, member?_memberSymbols]
    simp [furtherSymbols]
  | cons f es ih =>
    obtain ⟨bound, rfl⟩ := Nat.exists_eq_add_one_of_ne_zero (Nat.ne_zero_of_lt hbound)
    have hrest := @ih f bound (by simpa using hbound)
    rw [furtherSymbols, List.flatMap_cons, ← furtherSymbols, sequence?, member?_memberSymbols]
    simp [hrest]

/-- An object that has members is read as these members. -/
lemma value?_members (depth : Nat) (e : String × String) (es : List (String × String)) :
    value? (depth + 1)
      (.mark '\x7b' :: (memberSymbols e ++ (furtherSymbols es ++ [.mark '\x7d']))) =
      some (ofMembers ((e :: es).map fun e => (e.1, .string e.2)), []) := by
  have hlength : es.length ≤ (furtherSymbols es).length := by
    simp [furtherSymbols, memberSymbols]
    omega
  have hbound : es.length <
      (memberSymbols e ++ (furtherSymbols es ++ [Symbol.mark '\x7d'])).length := by
    rw [List.length_append, List.length_append, List.length_singleton]
    omega
  have hmembers := sequence?_members depth e hbound []
  simp only [memberSymbols, List.cons_append, List.nil_append] at hmembers ⊢
  simp only [value?, hmembers, Option.map_some]

lemma read?_of_cutInto {v : Json} (hcut : CutInto (render l 0 v) ts)
    (hvalue : value? maxDepth ts = some (v, [])) : read? (text l v) = some v := by
  have hsymbols : symbols? (text l v).length (text l v).toList = some ts := by
    rw [text, String.toList_ofList]
    exact hcut _ (by simp)
  simp [read?, hsymbols, hvalue]

/-- The text of an object of strings is read as this object. -/
theorem read?_text_ofStrings (hl : l.IsBlank) (t : Table String) :
    read? (text l (ofStrings t)) = some (ofStrings t) := by
  have hclose : CutInto (l.newline 0 ++ ['\x7d']) [.mark '\x7d'] :=
    (cutInto_nil.mark (by decide)).blanks (hl.1 0)
  cases hentries : t.entries with
  | nil =>
    have hobject : ofStrings t = .object [] := by
      simp [ofStrings, Table.toList, Table.map, hentries]
    have hcut : CutInto ['\x7b', '\x7d'] [.mark '\x7b', .mark '\x7d'] :=
      (cutInto_nil.mark (by decide)).mark (by decide)
    rw [hobject]
    exact read?_of_cutInto (by rwa [render]) rfl
  | cons e es =>
    have hobject : ofStrings t =
        .object ((e.1, .string e.2) :: es.map fun e => (e.1, .string e.2)) := by
      simp [ofStrings, Table.toList, Table.map, hentries]
    have hmembers := (CutInto.member hl 1 (CutInto.members hl 1 hclose es) e).blanks (hl.1 1)
    have hcut := hmembers.mark (show isMark '\x7b' = true by decide)
    have hmap : ofMembers ((e :: es).map fun e => (e.1, .string e.2)) = ofStrings t := by
      rw [← hentries]
      exact congrArg (fun u => object u.toList) (t.map string).ofList_toList
    refine read?_of_cutInto ?_ (hmap ▸ value?_members 126 e es)
    rw [hobject, render]
    simpa [List.append_assoc] using hcut

end Json
end ContentFilter
