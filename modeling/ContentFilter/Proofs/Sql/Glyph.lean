import ContentFilter.Sql.Template
import Mathlib.Tactic.Lemma
/-!
# The literals in a text of SQL

A text of SQL, read from left to right, is made of literals in single quotes and of the characters
between them; inside a literal a doubled quote stands for a quote.  `Sql.glyphs` takes a text apart
in this way, and fails if the last literal is left open.  It reads nothing but quotes, so it knows
as little about the text as a database does that has not parsed it yet.

A template says which pieces are meant as literals.  If its code holds no quote and a piece of code
parts each literal from what follows (`Template.Spaced`), then the text that it is filled to is
taken apart into just these pieces (`Template.glyphs_fill`), whatever the contents of the literals
and the values of the holes are.
-/

namespace ContentFilter

namespace Sql

/-- A character of SQL outside of literals, or a literal. -/
inductive Glyph where
  | code (c : Char)
  /-- A literal, by the text it stands for. -/
  | literal (content : List Char)
deriving DecidableEq, Repr

/-- The glyphs of a text, given the content so far of the literal that is open before it. -/
def glyphsFrom : Option (List Char) → List Char → Option (List Glyph)
  | none, [] => some []
  | some _, [] => none
  | none, '\'' :: r => glyphsFrom (some []) r
  | none, c :: r => (glyphsFrom none r).map (.code c :: ·)
  | some s, '\'' :: '\'' :: r => glyphsFrom (some (s ++ ['\''])) r
  | some s, '\'' :: r => (glyphsFrom none r).map (.literal s :: ·)
  | some s, c :: r => glyphsFrom (some (s ++ [c])) r

/-- The glyphs of a text, if every literal in it is closed. -/
def glyphs (text : String) : Option (List Glyph) := glyphsFrom none text.toList

/-- A text as characters outside of literals. -/
def codeGlyphs (text : String) : List Glyph := text.toList.map .code

/-- The characters of words: keywords, names and numbers. -/
def isWordChar (c : Char) : Bool := c.isAlphanum || c = '_' || c = '$' || 0x80 ≤ c.toNat

/-- The characters that end a word and do not open a literal. -/
def isDelimiter (c : Char) : Bool := !isWordChar c && c ≠ '\''

/-! ## Reading on behind a text -/

lemma glyphsFrom_code {c : Char} (h : c ≠ '\'') (r : List Char) :
    glyphsFrom none (c :: r) = (glyphsFrom none r).map (.code c :: ·) := by
  rw [glyphsFrom]
  exact h

lemma glyphsFrom_codes {cs : List Char} (h : '\'' ∉ cs) (r : List Char) :
    glyphsFrom none (cs ++ r) = (glyphsFrom none r).map (cs.map .code ++ ·) := by
  induction cs with
  | nil => simp
  | cons c cs ih =>
    have hc : c ≠ '\'' := fun hc => h (by simp [hc])
    rw [List.cons_append, glyphsFrom_code hc, ih fun hmem => h (List.mem_cons_of_mem c hmem),
      Option.map_map]
    rfl

/-- Behind a quote that is not followed by another one, a literal is closed. -/
lemma glyphsFrom_close (s : List Char) {r : List Char} (h : r.head? ≠ some '\'') :
    glyphsFrom (some s) ('\'' :: r) = (glyphsFrom none r).map (.literal s :: ·) := by
  rw [glyphsFrom]
  rintro r' rfl
  simp at h

/-- A quoted text is read as its content. -/
lemma glyphsFrom_escape (s content : List Char) {r : List Char} (h : r.head? ≠ some '\'') :
    glyphsFrom (some s) (content.flatMap escape ++ '\'' :: r) =
      (glyphsFrom none r).map (.literal (s ++ content) :: ·) := by
  induction content generalizing s with
  | nil => simpa using glyphsFrom_close s h
  | cons c content ih =>
    by_cases hc : c = '\''
    · -- a quote is written twice and read as one
      subst hc
      have hstep : glyphsFrom (some s)
          ('\'' :: '\'' :: (content.flatMap escape ++ '\'' :: r)) =
          glyphsFrom (some (s ++ ['\''])) (content.flatMap escape ++ '\'' :: r) := by
        rw [glyphsFrom]
      simpa [escape] using hstep.trans (ih (s ++ ['\'']))
    · have hstep : glyphsFrom (some s) (c :: (content.flatMap escape ++ '\'' :: r)) =
          glyphsFrom (some (s ++ [c])) (content.flatMap escape ++ '\'' :: r) := by
        rw [glyphsFrom]
        · rintro _ rfl
          exact absurd rfl hc
        · exact hc
      simpa [escape, hc] using hstep.trans (ih (s ++ [c]))

lemma glyphsFrom_quote (content : String) {r : List Char} (h : r.head? ≠ some '\'') :
    glyphsFrom none ((quote content).toList ++ r) =
      (glyphsFrom none r).map (.literal content.toList :: ·) := by
  have hopen : ∀ cs : List Char, glyphsFrom none ('\'' :: cs) = glyphsFrom (some []) cs :=
    fun cs => by rw [glyphsFrom]
  simpa [quote, hopen] using glyphsFrom_escape [] content.toList h

/-- A text whose literals are closed is read by itself, unless what follows begins with a
quote. -/
lemma glyphsFrom_append {o : Option (List Char)} {x y : List Char} {gs : List Glyph}
    (hx : glyphsFrom o x = some gs) (hy : y.head? ≠ some '\'') :
    glyphsFrom o (x ++ y) = (glyphsFrom none y).map (gs ++ ·) := by
  fun_induction glyphsFrom o x generalizing gs with
  | case1 =>
    obtain rfl := Option.some.inj hx
    simp
  | case2 => cases hx
  | case3 r ih => simpa [glyphsFrom] using ih hx
  | case4 c r hc ih =>
    obtain ⟨hs, hr, rfl⟩ := Option.map_eq_some_iff.1 hx
    rw [List.cons_append, glyphsFrom_code hc, ih hr, Option.map_map]
    rfl
  | case5 s r ih => simpa [glyphsFrom] using ih hx
  | case6 s r hr' ih =>
    obtain ⟨hs, hr, rfl⟩ := Option.map_eq_some_iff.1 hx
    -- the quote that closes stays alone, also where the text ends with it
    have hhead : (r ++ y).head? ≠ some '\'' := by
      cases r with
      | nil => exact hy
      | cons d r =>
        simp only [List.cons_append, List.head?_cons, ne_eq, Option.some.injEq]
        rintro rfl
        exact hr' r rfl
    rw [List.cons_append, glyphsFrom_close s hhead, ih hr, Option.map_map]
    rfl
  | case7 s c r hne hc ih =>
    have hstep : glyphsFrom (some s) (c :: (r ++ y)) = glyphsFrom (some (s ++ [c])) (r ++ y) := by
      rw [glyphsFrom]
      · rintro _ rfl
        exact absurd rfl hc
      · exact hc
    rw [List.cons_append, hstep]
    exact ih hx

end Sql

/-! ## The glyphs of a template -/

namespace Counter

/-- The counter behind some more names. -/
def advance (c : Counter) (n : Nat) : Counter := ⟨c.stem, c.next + n⟩

@[simp] lemma advance_zero (c : Counter) : c.advance 0 = c := rfl

lemma advance_succ (c : Counter) (n : Nat) : c.succ.advance n = c.advance (n + 1) := by
  simp only [advance, succ, Nat.add_assoc, Nat.add_comm 1 n]

/-- The characters of a placeholder name are those of words. -/
lemma isWordChar_of_mem_name (c : Counter) :
    ∀ x ∈ c.name.toList, Sql.isWordChar x = true := by
  intro x hx
  have hstem := c.stem.isPlainName
  simp only [name, nameAt, String.toList_append, List.mem_append] at hx
  rcases hx with hx | hx
  -- a character of the stem, which is a plain name
  · cases hs : c.stem.name.toList with
    | nil => simp [hs] at hx
    | cons d r =>
      rw [hs, Text.isPlainName, Bool.and_eq_true, List.all_eq_true] at hstem
      have hx' := hstem.2 x (hs ▸ hx)
      simp only [Bool.or_eq_true, decide_eq_true_eq] at hx'
      rcases hx' with hx' | hx' <;> simp [Sql.isWordChar, hx']
  · rw [Nat.toString_eq_repr, Nat.toList_repr] at hx
    have hdigit := Nat.isDigit_of_mem_toDigits (by decide) (by decide) hx
    simp [Sql.isWordChar, Char.isAlphanum, hdigit]

end Counter

namespace Template

open Sql

/-- The glyphs of a template whose holes are filled with the names of a counter. -/
def glyphs (c : Counter) : Template → List Glyph
  | [] => []
  | .code t :: r => codeGlyphs t ++ glyphs c r
  | .literal s :: r => .literal s.toList :: glyphs c r
  | .hole _ :: r => .code ':' :: codeGlyphs c.name ++ glyphs c.succ r

@[simp] lemma values_append (t u : Template) : (t ++ u).values = t.values ++ u.values := by
  induction t with
  | nil => rfl
  | cons p t ih => cases p <;> simp [values, ih]

lemma glyphs_append (c : Counter) (t u : Template) :
    (t ++ u).glyphs c = t.glyphs c ++ u.glyphs (c.advance t.values.length) := by
  induction t generalizing c with
  | nil => simp [glyphs, values]
  | cons p t ih =>
    cases p with
    | code x => simp [glyphs, values, ih]
    | literal x => simp [glyphs, values, ih]
    | hole v => simp [glyphs, values, ih, Counter.advance_succ]

/-- Filling a template uses up one name for each hole. -/
lemma counter_fill (t : Template) (s : Sink) :
    (t.fill s).2.counter = s.counter.advance t.values.length := by
  induction t generalizing s with
  | nil => rfl
  | cons p t ih =>
    cases p with
    | code x => simp [fill, values, ih]
    | literal x => simp [fill, values, ih]
    | hole v => simp [fill, values, ih, Sink.add, Counter.advance_succ]

/-- Nothing follows, or code that begins with a delimiter. -/
def Parted : Template → Prop
  | [] => True
  | .code t :: _ => t.toList.head?.any isDelimiter = true
  | _ => False

/-- The code holds no quotes, and the literals and holes are parted from what follows. -/
def Spaced : Template → Prop
  | [] => True
  | .code t :: r => '\'' ∉ t.toList ∧ Spaced r
  | _ :: r => Parted r ∧ Spaced r

/-- The text of a filled template does not begin with a quote if code stands in front. -/
lemma head?_fill_ne_quote {t : Template} (h : t.Parted) (s : Sink) {r : List Char}
    (hr : r.head? ≠ some '\'') : ((t.fill s).1.toList ++ r).head? ≠ some '\'' := by
  match t, h with
  | [], _ => simpa [fill] using hr
  | .code x :: t, h =>
    cases hx : x.toList with
    | nil => simp [Parted, hx] at h
    | cons d y =>
      simp only [Parted, hx, List.head?_cons, Option.any_some] at h
      simp only [fill, String.toList_append, hx, List.cons_append, List.head?_cons, ne_eq,
        Option.some.injEq]
      rintro rfl
      exact absurd h (by decide)

/-- A spaced template is read as the pieces it is made of. -/
theorem glyphsFrom_fill {t : Template} (h : t.Spaced) (s : Sink) {r : List Char}
    (hr : r.head? ≠ some '\'') :
    glyphsFrom none ((t.fill s).1.toList ++ r) =
      (glyphsFrom none r).map (t.glyphs s.counter ++ ·) := by
  induction t generalizing s with
  | nil => simp [fill, glyphs]
  | cons p t ih =>
    cases p with
    | code x =>
      simp only [fill, glyphs, String.toList_append, List.append_assoc]
      rw [glyphsFrom_codes h.1, ih h.2 s, Option.map_map]
      rfl
    | literal x =>
      simp only [fill, glyphs, String.toList_append, List.append_assoc]
      rw [glyphsFrom_quote x (head?_fill_ne_quote h.1 s hr), ih h.2 s, Option.map_map]
      rfl
    | hole v =>
      have hname : '\'' ∉ ':' :: s.counter.name.toList := by
        intro hmem
        rcases List.mem_cons.1 hmem with hmem | hmem
        · exact absurd hmem (by decide)
        · exact absurd (s.counter.isWordChar_of_mem_name _ hmem) (by decide)
      simp only [fill, glyphs, Sink.add, String.toList_append, List.append_assoc]
      have hcolon : ":".toList = [':'] := rfl
      rw [hcolon, List.singleton_append, ← List.cons_append, glyphsFrom_codes hname,
        ih h.2 ⟨s.counter.succ, s.values.insert s.counter.name v⟩, Option.map_map]
      simp [codeGlyphs, Function.comp_def]

theorem glyphs_fill {t : Template} (h : t.Spaced) (s : Sink) :
    Sql.glyphs (t.fill s).1 = some (t.glyphs s.counter) := by
  simpa [Sql.glyphs, glyphsFrom] using glyphsFrom_fill h s (r := []) (by simp)

end Template
end ContentFilter
