import ContentFilter.Proofs.Token.Source
import ContentFilter.Proofs.Token.Tiling
/-!
# Strings that can be written

A string is written between two delimiters, with a backslash before each delimiter inside.  There
is no way to escape the backslash itself, and none is needed but at the end: there it would escape
the closing delimiter.  So a text that does not end with a backslash can be written with any of the
three delimiters and is read back as it is (`Token.ofSource_written`), and a text that ends with one
is the content of no string at all, however the source goes on (`Token.getLast?_lexeme`).
-/

namespace ContentFilter

namespace Lexeme

variable {quote : Char} {s body : List Char}

/-- A text with a backslash before each delimiter. -/
def escape (quote : Char) (s : List Char) : List Char :=
  s.flatMap fun c => if c = quote then ['\\', quote] else [c]

/-- A text as a string between two delimiters. -/
def written (quote : Char) (s : List Char) : List Char := quote :: (escape quote s ++ [quote])

/-! ## Every delimiter is escaped -/

lemma escape_cons_self : escape quote (quote :: s) = '\\' :: quote :: escape quote s := by
  simp [escape]

lemma escape_cons_of_ne {c : Char} (hc : c ≠ quote) : escape quote (c :: s) = c :: escape quote s := by
  simp [escape, hc]

/-- An escaped text does not begin with the delimiter. -/
lemma head?_escape_ne (hq : quote ≠ '\\') : (escape quote s).head? ≠ some quote := by
  cases s with
  | nil => simp [escape]
  | cons c s =>
    by_cases hc : c = quote
    · subst hc
      simp [escape_cons_self, hq.symm]
    · simp [escape_cons_of_ne hc, hc]

/-- What is escaped stands between two delimiters, unless it ends with a backslash. -/
lemma quoted_escape (hq : quote ≠ '\\') (hs : s.getLast? ≠ some '\\') :
    Quoted quote (escape quote s) := by
  induction s with
  | nil => exact .nil quote
  | cons c s ih =>
    have htail : s.getLast? ≠ some '\\' := by
      cases s with
      | nil => simp
      | cons d r => rwa [List.getLast?_cons_cons] at hs
    by_cases hc : c = quote
    · subst hc
      rw [escape_cons_self]
      exact (ih htail).escaped hq
    · rw [escape_cons_of_ne hc]
      refine (ih htail).char hc fun hback => ?_
      cases s with
      | nil => simp [hback] at hs
      | cons d r => by_cases hd : d = quote <;> simp [escape, hd]

lemma unescape_cons {c : Char} (h : ¬(c = '\\' ∧ body.head? = some quote)) :
    unescape quote (c :: body) = c :: unescape quote body := by
  cases body with
  | nil => rfl
  | cons d r => rw [unescape, if_neg (by simpa using h)]

/-- An escaped text is read back as it is. -/
lemma unescape_escape (hq : quote ≠ '\\') (s : List Char) :
    unescape quote (escape quote s) = s := by
  induction s with
  | nil => rfl
  | cons c s ih =>
    by_cases hc : c = quote
    · subst hc
      rw [escape_cons_self, unescape, if_pos ⟨rfl, rfl⟩, ih]
    · rw [escape_cons_of_ne hc, unescape_cons fun h => head?_escape_ne hq h.2, ih]

/-! ## No string ends with a backslash -/

lemma unescape_ne_nil (h : body ≠ []) : unescape quote body ≠ [] := by
  cases body with
  | nil => exact absurd rfl h
  | cons c r =>
    cases r with
    | nil => exact List.cons_ne_nil _ _
    | cons d r =>
      rw [unescape]
      split <;> exact List.cons_ne_nil _ _

/-- The text of a string does not end with a backslash: a backslash at its end would escape the
closing delimiter. -/
lemma Quoted.getLast?_unescape (hq : quote ≠ '\\') (h : Quoted quote body) :
    (unescape quote body).getLast? ≠ some '\\' := by
  fun_induction unescape quote body with
  | case1 => simp
  | case2 c => exact h.closing
  | case3 c d r hcd ih =>
    obtain ⟨rfl, rfl⟩ := hcd
    have htail := ih (h.of_escaped (h.head_ne hq))
    rw [List.getLast?_cons]
    cases hlast : (unescape d r).getLast? with
    | none => simpa using hq
    | some e => simpa [hlast] using htail
  | case4 c d r hcd ih =>
    have hd : d ≠ quote := by
      rintro rfl
      exact hcd ⟨by simpa using h.inside [c] r rfl, rfl⟩
    obtain ⟨e, w, hw⟩ := List.exists_cons_of_ne_nil
      (unescape_ne_nil (List.cons_ne_nil d r))
    rw [hw, List.getLast?_cons_cons, ← hw]
    exact ih (h.of_char hd)

/-- A string among the lexemes stands between two delimiters. -/
lemma Begins.exists_quoted {b : Builtins} {word rest text : List Char}
    (h : Begins b word rest .string text) :
    ∃ quote body, isQuote quote = true ∧ Quoted quote body ∧ text = unescape quote body := by
  generalize hk : Kind.string = k at h
  cases h with
  | string hq hquoted => exact ⟨_, _, hq, hquoted, rfl⟩
  | delimiter hmem => simp [← hk] at hmem
  | connective hmem _ => simp [← hk] at hmem
  | operator _ => cases hk
  | number _ _ => cases hk
  | name _ _ => exact absurd hk.symm (classify_ne b word (by decide))

end Lexeme

namespace Token

open Lexeme (isQuote written)

/-- A string that is written is the only token of its source, takes up all of it, and stands for
the text that was written. -/
lemma ofSource_written (b : Builtins) {quote : Char} {s : String} (hq : isQuote quote = true)
    (hs : s.toList.getLast? ≠ some '\\') :
    ofSource b (String.ofList (written quote s.toList)) =
      .ok [plain .string ⟨0, (written quote s.toList).length⟩ s] := by
  have hback := Lexeme.ne_backslash_of_isQuote hq
  have htiled := Tiled.lexeme (b := b) (n := 0) (.string hq (Lexeme.quoted_escape hback hs))
    (.finish _)
  rw [List.append_nil, Lexeme.unescape_escape hback, String.ofList_toList] at htiled
  rw [ofSource_eq_ok_iff_tiled, String.toList_ofList]
  exact htiled

/-- No string in a source ends with a backslash. -/
lemma getLast?_lexeme {b : Builtins} {source : String} {ts : List Token}
    (h : ofSource b source = .ok ts) {t : Token} (ht : t ∈ ts) (hk : t.kind = .string) :
    t.lexeme.toList.getLast? ≠ some '\\' := by
  obtain ⟨c, r, l, position, hread, rfl⟩ := Scanner.exists_lexeme_of_mem_tokens h ht
  obtain ⟨word, rest, -, -, hbegins⟩ := Lexeme.begins_of_read hread
  rw [show l.kind = .string from hk] at hbegins
  obtain ⟨quote, body, hq, hquoted, htext⟩ := hbegins.exists_quoted
  rw [Scanner.tokenAt, plain, String.toList_ofList, htext]
  exact hquoted.getLast?_unescape (Lexeme.ne_backslash_of_isQuote hq)

/-- A text that does not end with a backslash can be written as a string with each of the
delimiters, and no string ends with a backslash; so the texts of strings are those that do not. -/
theorem string_lexeme_iff (s : String) :
    (s.toList.getLast? ≠ some '\\' → ∀ b : Builtins, ∀ quote ∈ ['"', '\'', '/'],
      ofSource b (String.ofList (written quote s.toList)) =
        .ok [plain .string ⟨0, (written quote s.toList).length⟩ s]) ∧
    (∀ b source ts, ofSource b source = .ok ts → ∀ t ∈ ts, t.kind = .string →
      t.lexeme.toList.getLast? ≠ some '\\') ∧
    ((∃ b source ts, ofSource b source = .ok ts ∧ ∃ t ∈ ts, t.kind = .string ∧ t.lexeme = s) ↔
      s.toList.getLast? ≠ some '\\') := by
  refine ⟨fun hs b quote hq => ?_, fun b source ts h t ht hk => getLast?_lexeme h ht hk, ?_, ?_⟩
  · exact ofSource_written b (by simpa [isQuote, or_assoc] using hq) hs
  · rintro ⟨b, source, ts, h, t, ht, hk, rfl⟩
    exact getLast?_lexeme h ht hk
  · intro hs
    exact ⟨.empty, _, _, ofSource_written _ (by decide : isQuote '"' = true) hs, _,
      List.mem_singleton_self _, rfl, rfl⟩

/-- A text with backslashes, delimiters, and backslashes before delimiters. -/
theorem string_lexeme_iff_of_backslashes :
    let s := "a\\b\\'c\\\\\"/d"
    s.toList.getLast? ≠ some '\\' ∧
      ofSource .empty "'a\\b\\\\'c\\\\\"/d'" = .ok [plain .string ⟨0, 14⟩ s] ∧
      ∃ b source ts, ofSource b source = .ok ts ∧ ∃ t ∈ ts, t.kind = .string ∧ t.lexeme = s := by
  intro s
  have hs : s.toList.getLast? ≠ some '\\' := by decide
  have htext : String.ofList (written '\'' s.toList) = "'a\\b\\\\'c\\\\\"/d'" := by decide
  have hlen : (written '\'' s.toList).length = 14 := by decide
  obtain ⟨hwritten, -, hiff⟩ := string_lexeme_iff s
  have hsource := hwritten hs .empty '\'' (by decide)
  rw [htext, hlen] at hsource
  exact ⟨hs, hsource, hiff.2 hs⟩

end Token
end ContentFilter
