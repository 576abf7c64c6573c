import ContentFilter.Proofs.Condition.Shape
/-!
# The signs of a condition

A well-formed template is read, when it is filled, piece by piece: its literals and holes are
signs of their own, and no word goes across the border between two pieces
(`Template.Formed.signs_glyphs`).  So its parentheses and connectives are those of its code.  A
condition is therefore contained if its free code is, and it is bare: whatever it begins with, it
has a word or an operator outside of all parentheses.
-/

namespace ContentFilter

namespace Sql

lemma Ends.finished {x : String} (h : ends x = true) : Finished (codeGlyphs x) := by
  intro c hc
  rw [codeGlyphs, List.getLast?_map, Option.map_eq_some_iff] at hc
  obtain ⟨c', hc', heq⟩ := hc
  obtain rfl := Glyph.code.inj heq
  simpa [ends, hc'] using h

lemma toLower_of_isDigit {c : Char} (h : c.isDigit = true) : c.toLower = c := by
  have hupper : ¬('A'.val ≤ c.val ∧ c.val ≤ 'Z'.val) := by
    simp [Char.isDigit, UInt32.le_iff_toNat_le] at *
    omega
  unfold Char.toLower
  split
  · next hc => exact absurd hc hupper
  · rfl

/-- A word with a digit in it is no connective. -/
lemma isConnective_eq_false {w : List Char} {c : Char} (hc : c ∈ w) (hd : c.isDigit = true) :
    isConnective w = false := by
  have hmem : c ∈ w.map Char.toLower := by
    have hlower := List.mem_map_of_mem (f := Char.toLower) hc
    rwa [toLower_of_isDigit hd] at hlower
  have hne : ∀ v : List Char, v.any Char.isDigit = false → w.map Char.toLower ≠ v := by
    rintro v hv rfl
    exact List.any_eq_false.1 hv c hmem hd
  have hand := hne ['a', 'n', 'd'] (by decide)
  have hor := hne ['o', 'r'] (by decide)
  simp [isConnective, isAnd, isOr, hand, hor]

/-- Code that reads the same wherever delimiters stand around it: it opens no literal, closes its
parentheses and has its connectives inside of them. -/
structure SelfContained (x : String) : Prop where
  quote_free : '\'' ∉ x.toList
  contained : Contained (signs (codeGlyphs x))

end Sql

namespace Counter

/-- The name of a placeholder ends with a digit. -/
lemma exists_digit_mem_name (c : Counter) : ∃ x ∈ c.name.toList, x.isDigit = true := by
  obtain ⟨x, hx⟩ := List.exists_mem_of_ne_nil _ (Nat.toDigits_ne_nil (n := c.next) (b := 10))
  refine ⟨x, ?_, Nat.isDigit_of_mem_toDigits (by decide) (by decide) hx⟩
  rw [name, nameAt, Nat.toString_eq_repr, String.toList_append, Nat.toList_repr]
  exact List.mem_append_right _ hx

lemma signs_name (c : Counter) : Sql.signs (Sql.codeGlyphs c.name) = [.word c.name.toList] := by
  obtain ⟨x, hx, -⟩ := c.exists_digit_mem_name
  exact Sql.signs_word (List.ne_nil_of_mem hx) c.isWordChar_of_mem_name

end Counter

namespace Template

open Sql

/-- The signs of a template whose holes are filled with the names of a counter. -/
def signs (c : Counter) : Template → List Sign
  | [] => []
  | .code x :: r => Sql.signs (codeGlyphs x) ++ signs c r
  | .literal x :: r => .literal x.toList :: signs c r
  | .hole _ :: r => .other ':' :: .word c.name.toList :: signs c.succ r

variable {Q : String → Prop} {d e : Nat} {t : Template}

lemma Opened.delimited (h : Opened t) (c : Counter) : Delimited (t.glyphs c) := by
  intro a r heq
  match t, h with
  | [], _ => simp [glyphs] at heq
  | .code x :: t, h =>
    cases hx : x.toList with
    | nil => simp [Opened, hx] at h
    | cons b y =>
      simp only [Opened, hx, List.head?_cons, Option.any_some] at h
      simp only [glyphs, codeGlyphs, hx, List.map_cons, List.cons_append, List.cons.injEq,
        Glyph.code.injEq] at heq
      obtain ⟨rfl, -⟩ := heq
      simp only [isDelimiter, Bool.and_eq_true, Bool.not_eq_true'] at h
      exact h.1
  | .literal x :: t, _ => simp [glyphs] at heq
  | .hole v :: t, _ =>
    simp only [glyphs, List.cons_append, List.cons.injEq, Glyph.code.injEq] at heq
    obtain ⟨rfl, -⟩ := heq
    decide

lemma Parted.opened (h : Parted t) : Opened t := by
  match t, h with
  | [], _ => trivial
  | .code x :: t, h => exact h

namespace Formed

/-- If the free code has no quotes, no code has any. -/
lemma spaced (h : Formed Q d t e) (hQ : ∀ x, Q x → '\'' ∉ x.toList) : t.Spaced := by
  induction h with
  | nil => trivial
  | code hx _ _ ih =>
    simp only [fixed, Bool.and_eq_true, Bool.not_eq_true', List.contains_eq_mem,
      decide_eq_false_iff_not] at hx
    exact ⟨hx.1.1, ih⟩
  | free hx _ _ ih => exact ⟨hQ _ hx, ih⟩
  | literal hr _ ih => exact ⟨hr, ih⟩
  | hole hr _ ih => exact ⟨hr, ih⟩

/-- The signs of a well-formed template are those of its pieces. -/
lemma signs_glyphs (h : Formed Q d t e) (c : Counter) : Sql.signs (t.glyphs c) = t.signs c := by
  induction h generalizing c with
  | nil => rfl
  | code _ hends _ ih =>
    rw [glyphs, signs, ← ih c]
    -- no word crosses the border: the code does not end in one, or none begins behind it
    rcases hends with hends | hr
    · exact signs_append_of_finished (Ends.finished hends) _
    · exact signs_append_of_delimited _ (hr.delimited c)
  | free _ hr _ ih =>
    rw [glyphs, signs, ← ih c]
    exact signs_append_of_delimited _ (hr.opened.delimited c)
  | @literal _ _ x r _ _ ih =>
    rw [glyphs, signs, ← ih c]
    rfl
  | hole hr _ ih =>
    rw [glyphs, signs, ← ih c.succ]
    have hword := signs_append_of_delimited (codeGlyphs c.name) (hr.opened.delimited c.succ)
    have hcolon : ∀ gs, Sql.signs (.code ':' :: gs) = .other ':' :: Sql.signs gs := fun _ => rfl
    rw [List.cons_append, hcolon, hword, c.signs_name]
    rfl

/-- The depth of the parentheses in a well-formed template, if the free code is contained. -/
lemma walk_signs (h : Formed Q d t e)
    (hQ : ∀ x, Q x → walk isConnective 0 (Sql.signs (codeGlyphs x)) = some 0) (c : Counter) :
    walk isConnective d (t.signs c) = some e := by
  induction h generalizing c with
  | nil => rfl
  | code hx _ _ ih =>
    simp only [fixed, Bool.and_eq_true, beq_iff_eq] at hx
    rw [signs, walk_append, hx.2]
    exact ih c
  | @free d _ x _ hx _ _ ih =>
    have hwalk : walk isConnective d (Sql.signs (codeGlyphs x)) = some d := by
      simpa using walk_add (hQ x hx) d
    rw [signs, walk_append, hwalk]
    exact ih c
  | literal _ _ ih => exact ih c
  | hole _ _ ih =>
    -- a stem may be `or`, but the name of a placeholder has a digit
    obtain ⟨x, hx, hdigit⟩ := c.exists_digit_mem_name
    simp only [signs, walk, isConnective_eq_false hx hdigit]
    simpa using ih c.succ

end Formed

/-! ## Bare conditions -/

lemma signs_append (c : Counter) (t u : Template) :
    (t ++ u).signs c = t.signs c ++ u.signs (c.advance t.values.length) := by
  induction t generalizing c with
  | nil => simp [signs, values]
  | cons p t ih =>
    cases p with
    | code x => simp [signs, values, ih]
    | literal x => simp [signs, values, ih]
    | hole v => simp [signs, values, ih, Counter.advance_succ]

/-- Behind a well-formed beginning there is fixed code with a sign outside of parentheses. -/
def Exposed (Q : String → Prop) (t : Template) : Prop :=
  ∃ t₁ k x t₂, t = t₁ ++ .code x :: t₂ ∧ Formed Q 0 t₁ k ∧
    bare k (Sql.signs (codeGlyphs x)) = true

namespace Exposed

variable {u expr right : Template} {x : String}

lemma head (h : bare 0 (Sql.signs (codeGlyphs x)) = true) (u : Template) :
    Exposed Q (.code x :: u) :=
  ⟨[], 0, x, u, rfl, .nil, h⟩

lemma joined {k : Nat} (ht : Formed Q 0 t k) (h : bare k (Sql.signs (codeGlyphs x)) = true)
    (u : Template) : Exposed Q (t ++ .code x :: u) :=
  ⟨t, k, x, u, rfl, ht, h⟩

lemma append (h : Exposed Q t) (u : Template) : Exposed Q (t ++ u) := by
  obtain ⟨t₁, k, x, t₂, rfl, ht, hx⟩ := h
  exact ⟨t₁, k, x, t₂ ++ u, by simp, ht, hx⟩

lemma bare_signs (h : Exposed Q t)
    (hQ : ∀ x, Q x → walk isConnective 0 (Sql.signs (codeGlyphs x)) = some 0) (c : Counter) :
    bare 0 (t.signs c) = true := by
  obtain ⟨t₁, k, x, t₂, rfl, ht, hx⟩ := h
  rw [signs_append, bare_append (ht.walk_signs hQ c), signs, bare_of_append hx, Bool.or_true]

lemma contentCall (h : bare 0 (Sql.signs (codeGlyphs (x ++ "(n.content, "))) = true)
    (literal : String) : Exposed Q (Dialect.contentCall x literal) :=
  head h _

lemma operator (d : Dialect) (o : Operator) (he : Formed Q 0 expr 0) (right : Template) :
    Exposed Q (o.template d expr right) := by
  cases o with
  | compare r => exact joined he (by cases r <;> decide) right
  | like n c =>
    cases d with
    | postgres => cases c <;> exact joined he (by cases n <;> decide) right
    | sqlite =>
      cases c with
      | false => exact joined he (by cases n <;> decide) right
      | true => exact (joined he (by cases n <;> decide) right).append _
  | regex n c =>
    cases d with
    | postgres => exact joined he (by cases n <;> cases c <;> decide) right
    | sqlite =>
      cases n with
      | true => exact head (by decide) _
      | false =>
        cases c with
        | true => exact head (by decide) _
        | false => exact joined he (by decide) right
  | member n => exact joined he (by cases n <;> decide) right

lemma each (d : Dialect) (f : FieldPath) (o : Operator) (v : Operand) :
    Exposed Q (Condition.eachTemplate d f o v) :=
  head (by decide) _

lemma postgresField (f : FieldPath) (o : Operator) (v : Operand) :
    Exposed Q (Condition.postgresField f o v) := by
  unfold Condition.postgresField
  split
  · exact contentCall (by decide) _
  · exact contentCall (by decide) _
  · exact contentCall (by decide) _
  · next n _ _ =>
    have hnegation : Formed Q 0 [.code (Dialect.negation n)] 0 :=
      .ended (e := 0) (by cases n <;> decide) .nil
    exact joined hnegation (by decide) _
  · -- what is cast to a time is in parentheses, and the operator stands behind them
    have hcast : Formed Q 0 (.code "(" :: Dialect.extractText .postgres f) 1 :=
      .ended (e := 1) (by decide) ((formed_extractText .postgres f).shift 1)
    refine joined hcast ?_ []
    cases o.relation?.getD .eq <;> decide
  · next r g => exact joined (formed_extractJson .postgres f) (by cases r <;> decide) _
  · split
    · exact each _ _ _ _
    · exact operator _ _ (formed_extractText _ _) _

lemma presence (d : Dialect) (f : FieldPath) : Exposed Q (d.presence f) := by
  cases d with
  | postgres =>
    simp only [Dialect.presence]
    split <;> exact contentCall (by decide) _
  | sqlite =>
    simp only [Dialect.presence]
    split
    · exact (contentCall (by decide) _).append _
    · split
      · exact head (by decide) _
      · exact (contentCall (by decide) _).append _

/-- Every condition has a sign outside of parentheses. -/
theorem condition (d : Dialect) (c : Condition) (h : ∀ x ∈ c.codes, Q x) :
    Exposed Q (c.template d) := by
  cases c with
  | comparison l o r =>
    have hl : ∀ x ∈ l.codes, Q x := fun x hx => h x (List.mem_append_left _ hx)
    cases l with
    | location l =>
      cases l with
      | field f =>
        cases d with
        | postgres => exact postgresField f o r
        | sqlite =>
          simp only [Condition.template, Condition.comparisonTemplate, Condition.sqliteField]
          split
          · exact each _ _ _ _
          · exact operator _ _ (formed_extractText _ _) _
      | column x => exact operator d o (formed_free (hl x (by simp [Subject.codes,
          Location.codes]))) _
    | number n => exact operator d o (formed_free (hl n (by simp [Subject.codes]))) _
    | boolean b => exact operator d o (formed_bool b) _
  | nullity l negated =>
    exact joined (formed_location d l h) (by cases negated <;> decide) []
  | presence f => exact presence d f
  | urlPath k v locale => exact ((head (by cases d <;> decide) _).append _).append _

end Exposed

/-- A condition with self-contained free code, when it is filled, is contained, and not all of it
stands in parentheses. -/
theorem signsOf_fill_condition (d : Dialect) (c : Condition)
    (h : ∀ x ∈ c.codes, SelfContained x) (s : Sink) :
    ∃ ls, signsOf ((c.template d).fill s).1 = some ls ∧ Contained ls ∧ bare 0 ls = true := by
  have hformed := formed_condition d c h
  have hwalk : ∀ x, SelfContained x → walk isConnective 0 (Sql.signs (codeGlyphs x)) = some 0 :=
    fun x hx => contained_iff.1 hx.contained
  refine ⟨(c.template d).signs s.counter, ?_, contained_iff.2 (hformed.walk_signs hwalk _),
    (Exposed.condition d c h).bare_signs hwalk _⟩
  rw [signsOf, glyphs_fill (hformed.spaced fun x hx => hx.quote_free), Option.map_some,
    hformed.signs_glyphs]

end Template
end ContentFilter
