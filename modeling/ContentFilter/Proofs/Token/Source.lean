import ContentFilter.Compiler
import ContentFilter.Proofs.Outcome
import Mathlib.Data.List.TakeWhile
import Mathlib.Tactic.SplitIfs
/-!
# The tokens of a filter

Where the tokens of a filter come from.  Each token that is scanned is a lexeme with its place in
the source (`Scanner.exists_lexeme_of_mem_tokens`), and each token that is left when the brackets
are folded is one of these or a list whose items are scalars among these
(`Token.Folds.mem`).  What holds of all lexemes holds of the tokens of a filter and of the items
of its lists: a token is in the group of its kind, and a number is written with digits, a minus
sign and a point.
-/

namespace ContentFilter

namespace Lexeme

/-! ## The texts of numbers -/

/-- The characters of a number. -/
def isNumberChar (c : Char) : Bool := c.isDigit || c = '-' || c = '.'

lemma forall_of_readDigits {sign cs : List Char} {l : Lexeme}
    (hsign : ∀ x ∈ sign, isNumberChar x = true) (h : readDigits sign cs = .ok l) :
    ∀ x ∈ l.text, isNumberChar x = true := by
  have hdigits : ∀ r : List Char, ∀ x ∈ r.takeWhile Char.isDigit, isNumberChar x = true := by
    intro r x hx
    simp [isNumberChar, List.mem_takeWhile_imp hx]
  unfold readDigits at h
  simp only at h
  split at h
  · split at h
    · simp at h
    · obtain rfl := Except.ok.inj h
      intro x hx
      simp only [List.mem_append, List.mem_cons] at hx
      rcases hx with (hx | hx) | rfl | hx
      · exact hsign x hx
      · exact hdigits _ x hx
      · decide
      · exact hdigits _ x hx
  · obtain rfl := Except.ok.inj h
    intro x hx
    rcases List.mem_append.1 hx with hx | hx
    · exact hsign x hx
    · exact hdigits _ x hx

lemma forall_of_readNumber {c : Char} {r : List Char} {l : Lexeme}
    (h : readNumber c r = .ok l) : ∀ x ∈ l.text, isNumberChar x = true := by
  unfold readNumber at h
  split at h
  · split at h
    · split at h
      · have hminus : ['-'].all isNumberChar = true := by decide
        exact forall_of_readDigits (List.all_eq_true.1 hminus) h
      · simp at h
    · simp at h
  · exact forall_of_readDigits (by simp) h

/-- The kinds of names. -/
def nameKinds : List Kind := [.boolean, .null, .keyword, .path, .fulltext, .builtin, .field]

lemma classify_mem (b : Builtins) (name : List Char) : classify b name ∈ nameKinds := by
  unfold classify
  split_ifs <;> decide

lemma classify_ne (b : Builtins) (name : List Char) {k : Kind} (hk : k ∉ nameKinds) :
    classify b name ≠ k := by
  rintro rfl
  exact hk (classify_mem b name)

lemma kind_of_readSpelled {c : Char} {r : List Char} {l : Lexeme}
    (h : readSpelled c r = .ok l) : l.kind ∈ spelled := by
  unfold readSpelled at h
  split at h
  · simp at h
  · split at h
    · simp at h
    · split at h
      · next hk =>
        obtain rfl := Except.ok.inj h
        exact List.mem_of_find?_eq_some hk
      · split at h <;> simp at h

/-- A number is written with digits, a minus sign and a point. -/
lemma isNumberChar_of_read {b : Builtins} {c : Char} {r : List Char} {l : Lexeme}
    (h : read b c r = .ok l) (hk : l.kind = .number) :
    ∀ x ∈ l.text, isNumberChar x = true := by
  unfold read at h
  split at h
  · unfold readQuoted at h
    split at h
    · obtain rfl := Except.ok.inj h
      cases hk
    · simp at h
  · split at h
    · exact forall_of_readNumber h
    · split at h
      · obtain ⟨n, -, rfl⟩ := Except.map_eq_ok_iff.1 h
        exact absurd hk (classify_ne b _ (by decide))
      · have hmem := kind_of_readSpelled h
        rw [hk] at hmem
        exact absurd hmem (by decide)

end Lexeme

namespace Scanner

/-- Each token that is scanned is a lexeme at some place. -/
lemma exists_lexeme_of_mem_tokens {b : Builtins} {s : Scanner} {ts : List Token}
    (h : s.tokens b = .ok ts) {t : Token} (ht : t ∈ ts) :
    ∃ c r l position, Lexeme.read b c r = .ok l ∧ t = tokenAt position l := by
  fun_induction tokens b s generalizing ts with
  | case1 =>
    obtain rfl := Except.ok.inj h
    simp at ht
  | case2 s u next hstep ih =>
    obtain ⟨us, hnext, rfl⟩ := Except.map_eq_ok_iff.1 h
    rcases List.mem_cons.1 ht with rfl | hmem
    · unfold step at hstep
      simp only at hstep
      split at hstep
      · simp at hstep
      · next c r _ =>
        split at hstep
        · next l hl =>
          obtain ⟨rfl, -⟩ := Step.token.inj hstep
          exact ⟨c, r, l, _, hl, rfl⟩
        · simp at hstep
    · exact ih hnext hmem
  | case3 => simp at h

end Scanner

namespace Token

/-! ## Folding -/

/-- An open list takes scalars only, and keeps what it has. -/
lemma OpenList.push_eq_ok {o o' : OpenList} {t : Token} (h : o.push t = .ok o') :
    t.group = .operand ∧ t.kind.isScalar = true ∧ o' = ⟨o.bracket, t :: o.read⟩ := by
  unfold push at h
  split at h
  · simp at h
  · next hg =>
    split at h
    · simp at h
    · next hs => exact ⟨by simpa using hg, by simpa using hs, (Except.ok.inj h).symm⟩

/-- A closed list has the items that were read. -/
lemma OpenList.close_eq_ok {source : String} {o : OpenList} {t list : Token}
    (h : o.close source t = .ok list) :
    list = ofItems (o.bracket.span.upTo t.span) (slice source (o.bracket.span.upTo t.span))
      o.read.reverse := by
  unfold close at h
  simp only at h
  split at h
  · simp at h
  · exact (Except.ok.inj h).symm

/-- What the folding does with a token sequence, given the list that is open before it. -/
inductive Folds (source : String) : Option OpenList → List Token → List Token → Prop
  | done : Folds source none [] []
  | opens {t : Token} {ts us : List Token} :
      t.group = .leftBracket → Folds source (some ⟨t, []⟩) ts us →
      Folds source none (t :: ts) us
  | closes {o : OpenList} {t list : Token} {ts us : List Token} :
      t.group = .rightBracket → o.close source t = .ok list → Folds source none ts us →
      Folds source (some o) (t :: ts) (list :: us)
  | item {o o' : OpenList} {t : Token} {ts us : List Token} :
      o.push t = .ok o' → Folds source (some o') ts us → Folds source (some o) (t :: ts) us
  | keep {t : Token} {ts us : List Token} :
      t.group ≠ .leftBracket → t.group ≠ .rightBracket → Folds source none ts us →
      Folds source none (t :: ts) (t :: us)

lemma folds_of_foldFrom {source : String} {o : Option OpenList} {ts us : List Token}
    (h : foldFrom source o ts = .ok us) : Folds source o ts us := by
  fun_induction foldFrom source o ts generalizing us with
  | case1 =>
    obtain rfl := Except.ok.inj h
    exact .done
  | case2 => simp at h
  | case3 => simp at h
  | case4 t r hg ih => exact .opens hg (ih h)
  | case5 => simp at h
  | case6 t r o hg ih =>
    obtain ⟨list, hclose, h⟩ := Except.bind_eq_ok_iff.1 h
    obtain ⟨tail, htail, h⟩ := Except.bind_eq_ok_iff.1 h
    obtain rfl := Except.ok.inj h
    exact .closes hg hclose (ih htail)
  | case7 t r o _ _ ih =>
    obtain ⟨o', hpush, h⟩ := Except.bind_eq_ok_iff.1 h
    exact .item hpush (ih o' h)
  | case8 t r hl hr ih =>
    obtain ⟨tail, htail, h⟩ := Except.bind_eq_ok_iff.1 h
    obtain rfl := Except.ok.inj h
    exact .keep hl hr (ih htail)

/-- The tokens that are left when the brackets are folded are tokens from before, or lists of
scalars from before. -/
lemma Folds.mem {source : String} {o : Option OpenList} {ts us : List Token}
    (h : Folds source o ts us) {u : Token} (hu : u ∈ us) :
    u ∈ ts ∨ ∃ span lexeme items, u = ofItems span lexeme items ∧
      ∀ t ∈ items, t ∈ ts ∨ ∃ l ∈ o, t ∈ l.read := by
  -- the items of a list are those read before, which the open list keeps, and those still to come
  induction h with
  | done => simp at hu
  | opens _ _ ih =>
    rcases ih hu with hu | ⟨span, lexeme, items, rfl, hitems⟩
    · exact .inl (List.mem_cons_of_mem _ hu)
    · refine .inr ⟨span, lexeme, items, rfl, fun t ht => ?_⟩
      rcases hitems t ht with ht | ⟨l, hl, ht⟩
      · exact .inl (List.mem_cons_of_mem _ ht)
      · obtain rfl := Option.mem_some.1 hl
        simp at ht
  | closes _ hclose _ ih =>
    rcases List.mem_cons.1 hu with rfl | hu
    · refine .inr ⟨_, _, _, OpenList.close_eq_ok hclose, fun t ht => .inr ⟨_, rfl, ?_⟩⟩
      simpa using ht
    · rcases ih hu with hu | ⟨span, lexeme, items, rfl, hitems⟩
      · exact .inl (List.mem_cons_of_mem _ hu)
      · refine .inr ⟨span, lexeme, items, rfl, fun t ht => .inl ?_⟩
        rcases hitems t ht with ht | ⟨l, hl, ht⟩
        · exact List.mem_cons_of_mem _ ht
        · simp at hl
  | item hpush _ ih =>
    rcases ih hu with hu | ⟨span, lexeme, items, rfl, hitems⟩
    · exact .inl (List.mem_cons_of_mem _ hu)
    · refine .inr ⟨span, lexeme, items, rfl, fun t ht => ?_⟩
      rcases hitems t ht with ht | ⟨l, hl, ht⟩
      · exact .inl (List.mem_cons_of_mem _ ht)
      · obtain rfl := Option.mem_some.1 hl
        obtain ⟨-, -, rfl⟩ := OpenList.push_eq_ok hpush
        rcases List.mem_cons.1 ht with rfl | ht
        · exact .inl List.mem_cons_self
        · exact .inr ⟨_, rfl, ht⟩
  | keep _ _ _ ih =>
    rcases List.mem_cons.1 hu with rfl | hu
    · exact .inl List.mem_cons_self
    · rcases ih hu with hu | ⟨span, lexeme, items, rfl, hitems⟩
      · exact .inl (List.mem_cons_of_mem _ hu)
      · refine .inr ⟨span, lexeme, items, rfl, fun t ht => .inl ?_⟩
        rcases hitems t ht with ht | ⟨l, hl, ht⟩
        · exact List.mem_cons_of_mem _ ht
        · simp at hl

end Token

/-! ## The tokens of a filter -/

namespace Token

/-- The token is a lexeme with a place. -/
def IsLexeme (b : Builtins) (t : Token) : Prop :=
  ∃ c r l position, Lexeme.read b c r = .ok l ∧ t = Scanner.tokenAt position l

/-- The token is a lexeme, or a list of lexemes. -/
def FromSource (b : Builtins) (t : Token) : Prop :=
  IsLexeme b t ∨
    ∃ span lexeme items, t = ofItems span lexeme items ∧ ∀ i ∈ items, IsLexeme b i

namespace FromSource

variable {b : Builtins} {t : Token}

lemma group_eq (h : FromSource b t) : t.group = t.kind.group := by
  rcases h with ⟨_, _, _, _, -, rfl⟩ | ⟨_, _, _, rfl, -⟩ <;> rfl

lemma isNumberChar (h : FromSource b t) (hk : t.kind = .number) :
    ∀ x ∈ t.lexeme.toList, Lexeme.isNumberChar x = true := by
  rcases h with ⟨_, _, l, _, hl, rfl⟩ | ⟨_, _, _, rfl, -⟩
  · simpa [Scanner.tokenAt, plain] using Lexeme.isNumberChar_of_read hl hk
  · cases hk

end FromSource
end Token

namespace Compiler

variable {c : Compiler} {query : String}

/-- The tokens of a filter, with its lists folded. -/
def tokens (c : Compiler) (query : String) : Except ParseError (List Token) := do
  let tokens ← Token.scan c.builtins query
  Token.foldLists query tokens

lemma tokens_eq_ok_iff {ts : List Token} :
    c.tokens query = .ok ts ↔ ∃ raw, Token.ofSource c.builtins query = .ok raw ∧
      Token.foldBrackets query raw = .ok ts := by
  simp only [tokens, Token.scan, Token.foldLists, Except.bind_eq_ok_iff,
    Except.mapError_eq_ok_iff]

/-- Every token of a filter comes from its source. -/
theorem fromSource_of_mem_tokens {ts : List Token} (h : c.tokens query = .ok ts) {t : Token}
    (ht : t ∈ ts) : Token.FromSource c.builtins t := by
  obtain ⟨raw, hraw, hfold⟩ := tokens_eq_ok_iff.1 h
  have hlex : ∀ u ∈ raw, Token.IsLexeme c.builtins u := fun u hu =>
    Scanner.exists_lexeme_of_mem_tokens hraw hu
  rcases (Token.folds_of_foldFrom hfold).mem ht with ht | ⟨span, lexeme, items, rfl, hitems⟩
  · exact .inl (hlex t ht)
  · refine .inr ⟨span, lexeme, items, rfl, fun i hi => ?_⟩
    rcases hitems i hi with hi | ⟨o, ho, -⟩
    · exact hlex i hi
    · cases ho

end Compiler
end ContentFilter
