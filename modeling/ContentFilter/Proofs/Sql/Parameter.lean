import ContentFilter.Proofs.Condition.Shape
import ContentFilter.Proofs.Sql.Binding
import ContentFilter.Proofs.Text.Cutting
/-!
# The parameters in a text of SQL

A database knows nothing of stems.  To it a parameter is a colon outside of literals, which stands
beside no other colon, and the word behind it.  `Sql.parameters` finds the names of all parameters
in the order of the text.  In a template that is filled from a sink these are the names for its
holes, as long as no code in it names a parameter of its own (`Template.Formed.parameters_glyphs`).
-/

namespace ContentFilter

namespace Sql

/-- The characters of parameter names: ASCII letters, digits and the underscore. -/
def isParameterChar (c : Char) : Bool := c.isAlphanum || c = '_'

/-- The names of the parameters in the order of the text, given whether a colon stands in front. -/
def parametersFrom : Bool → List Glyph → List String
  | _, [] => []
  | afterColon, .code ':' :: r =>
    let name := (leadingCode r).takeWhile isParameterChar
    (if afterColon || name.isEmpty then [] else [String.ofList name]) ++ parametersFrom true r
  | _, _ :: r => parametersFrom false r

/-- The names of the parameters in the order of the text. -/
def parameters (gs : List Glyph) : List String := parametersFrom false gs

/-- The code names no parameter, whatever follows it. -/
def Unnamed (x : String) : Prop :=
  ∀ gs, parametersFrom false (codeGlyphs x ++ gs) = parametersFrom false gs

variable {cs ds : List Char} {gs : List Glyph}

lemma parametersFrom_code {c : Char} (hc : c ≠ ':') (b : Bool) (gs : List Glyph) :
    parametersFrom b (.code c :: gs) = parametersFrom false gs := by
  rw [parametersFrom]
  simpa using hc

/-- Code without colons names no parameter, and parts what follows from a colon in front. -/
lemma parametersFrom_codes (hcolon : ':' ∉ cs) (hne : cs ≠ []) (b : Bool) (gs : List Glyph) :
    parametersFrom b (cs.map .code ++ gs) = parametersFrom false gs := by
  induction cs generalizing b with
  | nil => exact absurd rfl hne
  | cons c cs ih =>
    rw [List.mem_cons, not_or] at hcolon
    rw [List.map_cons, List.cons_append, parametersFrom_code (Ne.symm hcolon.1)]
    by_cases hcs : cs = []
    · rw [hcs, List.map_nil, List.nil_append]
    · exact ih hcolon.2 hcs false

lemma unnamed_of_notMem {x : String} (h : ':' ∉ x.toList) : Unnamed x := by
  intro gs
  by_cases hx : x.toList = []
  · rw [codeGlyphs, hx, List.map_nil, List.nil_append]
  · exact parametersFrom_codes h hx false gs

/-- Literal texts are checked as lists of characters, which is faster than taking them apart. -/
lemma unnamed_ofList {cs : List Char} (h : ':' ∉ cs) : Unnamed (String.ofList cs) :=
  unnamed_of_notMem (by rwa [String.toList_ofList])

lemma Unnamed.append {x y : String} (hx : Unnamed x) (hy : Unnamed y) : Unnamed (x ++ y) := by
  intro gs
  rw [codeGlyphs, String.toList_append, List.map_append, List.append_assoc]
  exact (hx _).trans (hy gs)

/-- A cast names no parameter, as its two colons stand beside each other. -/
lemma unnamed_cast {x y : String} (hx : ':' ∉ x.toList) (hy : ':' ∉ y.toList)
    (hne : y.toList ≠ []) : Unnamed (x ++ "::" ++ y) := by
  intro gs
  have hcode : codeGlyphs (x ++ "::" ++ y) ++ gs =
      codeGlyphs x ++ (.code ':' :: .code ':' :: (codeGlyphs y ++ gs)) := by
    simp [codeGlyphs]
  have htail : parametersFrom true (codeGlyphs y ++ gs) = parametersFrom false gs :=
    parametersFrom_codes hy hne true gs
  have hfirst :
      (leadingCode (.code ':' :: (codeGlyphs y ++ gs))).takeWhile isParameterChar = [] := by
    rw [leadingCode, List.takeWhile_cons_of_neg (by decide)]
  rw [hcode, unnamed_of_notMem hx, parametersFrom, hfirst, parametersFrom, htail]
  simp

end Sql

open Sql

namespace Counter

lemma name_ne_nil (c : Counter) : c.name.toList ≠ [] := by
  rw [name, nameAt, String.toList_append]
  simp

/-- The names that a counter hands out are names of parameters. -/
lemma isParameterChar_of_mem_name (c : Counter) :
    ∀ x ∈ c.name.toList, isParameterChar x = true := by
  intro x hx
  rw [name, nameAt, String.toList_append, List.mem_append] at hx
  rcases hx with hx | hx
  · have hstem := c.stem.isPlainName
    cases hs : c.stem.name.toList with
    | nil => simp [hs] at hx
    | cons d r =>
      rw [hs, Text.isPlainName, Bool.and_eq_true, List.all_eq_true] at hstem
      exact hstem.2 x (hs ▸ hx)
  · rw [Nat.toString_eq_repr, Nat.toList_repr] at hx
    have hdigit := Nat.isDigit_of_mem_toDigits (by decide) (by decide) hx
    simp [isParameterChar, Char.isAlphanum, hdigit]

end Counter

namespace Template

variable {Q : String → Prop} {d e : Nat} {t u : Template}

/-- No code of the template names a parameter. -/
def Unnamed (t : Template) : Prop := ∀ x, .code x ∈ t → Sql.Unnamed x

@[simp] lemma unnamed_nil : Unnamed [] := by simp [Unnamed]

@[simp] lemma unnamed_code {x : String} :
    Unnamed (.code x :: t) ↔ Sql.Unnamed x ∧ t.Unnamed := by
  simp [Unnamed]

@[simp] lemma unnamed_literal {x : String} : Unnamed (.literal x :: t) ↔ t.Unnamed := by
  simp [Unnamed]

@[simp] lemma unnamed_hole {v : Scalar} : Unnamed (.hole v :: t) ↔ t.Unnamed := by
  simp [Unnamed]

@[simp] lemma unnamed_append : (t ++ u).Unnamed ↔ t.Unnamed ∧ u.Unnamed := by
  simp [Unnamed, or_imp, forall_and]

/-- The parameters of a well-formed template are the names for its holes. -/
theorem Formed.parameters_glyphs (h : Formed Q d t e) (hcode : t.Unnamed) (c : Counter) :
    parameters (t.glyphs c) = c.names t.values.length := by
  induction h generalizing c with
  | nil => rfl
  | code _ _ _ ih =>
    rw [unnamed_code] at hcode
    exact (hcode.1 _).trans (ih hcode.2 c)
  | free _ _ _ ih =>
    rw [unnamed_code] at hcode
    exact (hcode.1 _).trans (ih hcode.2 c)
  | literal _ _ ih => exact ih (unnamed_literal.1 hcode) c
  | @hole _ _ _ r hr _ ih =>
    -- the name behind the colon ends where what parts the hole from the rest begins
    have hname : (leadingCode (codeGlyphs c.name ++ glyphs c.succ r)).takeWhile isParameterChar =
        c.name.toList := by
      rw [codeGlyphs, leadingCode_append]
      refine (Text.span_append c.isParameterChar_of_mem_name fun x hx => ?_).1
      by_contra hx'
      have hdelimiter := hr.isDelimiter_head c.succ x hx
      simp only [isParameterChar, Bool.not_eq_false, Bool.or_eq_true, decide_eq_true_eq] at hx'
      rcases hx' with hx' | rfl
      · simp [isDelimiter, isWordChar, hx'] at hdelimiter
      · exact absurd hdelimiter (by decide)
    have hcolon : ':' ∉ c.name.toList := fun hmem =>
      absurd (c.isParameterChar_of_mem_name _ hmem) (by decide)
    have hrest : parametersFrom true (codeGlyphs c.name ++ glyphs c.succ r) =
        c.succ.names (values r).length :=
      (parametersFrom_codes hcolon c.name_ne_nil true _).trans (ih (unnamed_hole.1 hcode) c.succ)
    rw [glyphs, List.cons_append, parameters, parametersFrom, hname, hrest, values,
      List.length_cons, Counter.names_succ]
    simp [c.name_ne_nil]

end Template
end ContentFilter
