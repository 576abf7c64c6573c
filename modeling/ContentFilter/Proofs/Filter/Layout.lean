import ContentFilter.Proofs.Filter.Parallel
import ContentFilter.Proofs.Token.Spacing
/-!
# Layout does not matter

Two sources with the same words, that is with tokens of the same kinds and lexemes, are compiled to
the same fragment or refused with the same message, wherever the words stand and however the strings
among them are delimited.  To change the gaps between the words of a source, or to put gaps where
there were none, leaves the words as they are (`Compiler.layout_irrelevant`).
-/

namespace ContentFilter

open Except (Rel)
open Token (Counterpart)

namespace Token

variable {b : Builtins} {source source' : String} {ts us : List Token}

/-- A token that is scanned is its word at a place. -/
lemma IsLexeme.eq_plain {t : Token} (h : IsLexeme b t) : t = plain t.kind t.span t.lexeme := by
  obtain ⟨_, _, _, _, -, rfl⟩ := h
  rfl

lemma Counterpart.of_word {t u : Token} (ht : IsLexeme b t) (hu : IsLexeme b u)
    (h : t.word = u.word) : Counterpart False b b t u := by
  obtain ⟨hkind, hlexeme⟩ := Prod.mk.inj h
  rw [ht.eq_plain, hu.eq_plain, hkind, hlexeme]
  exact ⟨rfl, rfl, False.elim, fun _ => rfl, .nil, fun _ => rfl⟩

/-- The same words are counterparts, at whatever places. -/
lemma counterparts_of_words (hts : ∀ t ∈ ts, IsLexeme b t) (hus : ∀ u ∈ us, IsLexeme b u)
    (h : ts.map word = us.map word) : List.Forall₂ (Counterpart False b b) ts us := by
  induction ts generalizing us with
  | nil =>
    obtain rfl := List.map_eq_nil_iff.1 h.symm
    exact .nil
  | cons t ts ih =>
    obtain ⟨u, us, rfl, hu, htail⟩ := List.map_eq_cons_iff.1 h.symm
    obtain ⟨ht, hts⟩ := List.forall_mem_cons.1 hts
    obtain ⟨hu', hus⟩ := List.forall_mem_cons.1 hus
    exact .cons (.of_word ht hu' hu.symm) (ih hts hus htail.symm)

end Token

namespace Compiler

variable {c : Compiler} {query query' : String} {raw raw' : List Token}

/-- Filters with the same words have the same nodes, or are refused for the same cause. -/
lemma parse_rel_of_words (h : Token.ofSource c.builtins query = .ok raw)
    (h' : Token.ofSource c.builtins query' = .ok raw')
    (hwords : raw.map Token.word = raw'.map Token.word) :
    Rel (fun e e' => e.cause = e'.cause) Eq (c.parse query) (c.parse query') := by
  have hcounterparts := Token.counterparts_of_words
    (fun _ => Scanner.exists_lexeme_of_mem_tokens h)
    (fun _ => Scanner.exists_lexeme_of_mem_tokens h') hwords
  have hparse : Rel (ParseError.Agrees False)
      (List.Forall₂ (Node.Translates c.dialect c.dialect)) (c.parse query) (c.parse query') := by
    refine parse_rel False.elim ?_
    rw [h, h']
    exact .ok hcounterparts
  exact hparse.mono (fun _ _ he => he.cause_eq) fun _ _ => Node.Translates.eq_of_forall₂

/-- Filters with the same words are compiled to the same fragment, or are refused for the same
cause. -/
lemma compile_rel_of_words (h : Token.ofSource c.builtins query = .ok raw)
    (h' : Token.ofSource c.builtins query' = .ok raw')
    (hwords : raw.map Token.word = raw'.map Token.word) :
    Rel (fun e e' => e.cause = e'.cause) Eq (c.compile query) (c.compile query') := by
  have hinto : Rel (fun e e' => e.cause = e'.cause) Eq
      (c.compileInto query (.ofStem c.stem)) (c.compileInto query' (.ofStem c.stem)) := by
    refine (parse_rel_of_words h h' hwords).bind ?_
    rintro ns _ rfl
    exact .ok rfl
  refine hinto.bind ?_
  rintro result _ rfl
  exact .ok rfl

/-- A source with the same words as a filter is compiled to the same fragment, or both are refused
with the same message.  The words of the filter stay the same when the stretches of its tokens are
written in order with any gaps between them that are not empty, and with any gaps at both ends. -/
theorem layout_irrelevant (c : Compiler) (query : String) (raw : List Token)
    (hraw : Token.ofSource c.builtins query = .ok raw) :
    (∀ query' raw', Token.ofSource c.builtins query' = .ok raw' →
      raw.map Token.word = raw'.map Token.word →
      (∃ fragment, c.compile query = .ok fragment ∧ c.compile query' = .ok fragment) ∨
        ∃ e e', c.compile query = .error e ∧ c.compile query' = .error e' ∧
          e.message = e'.message) ∧
    ∀ lead gaps, gaps.length = raw.length →
      (∀ gap ∈ lead :: gaps, ∀ x ∈ gap, isGap x = true) → (∀ gap ∈ gaps.dropLast, gap ≠ []) →
      ∃ us,
        Token.ofSource c.builtins (String.ofList (Token.respaced query raw lead gaps)) = .ok us ∧
        us.map Token.word = raw.map Token.word := by
  refine ⟨fun query' raw' hraw' hwords => ?_,
    fun lead gaps hlength hgaps hne => Token.ofSource_respaced hraw hlength hgaps hne⟩
  have hrel := compile_rel_of_words hraw hraw' hwords
  generalize c.compile query = x, c.compile query' = x' at hrel
  cases hrel with
  | error he => exact .inr ⟨_, _, rfl, rfl, congrArg Cause.message he⟩
  | ok hfragment => exact .inl ⟨_, rfl, by rw [hfragment]⟩

/-- A filter without any blanks, another one with the same words and other delimiters, and the first
one with a comma and a blank behind each token. -/
theorem layout_irrelevant_of_dense_filter :
    ∃ raw raw', Token.ofSource .empty "a@['x',2]&b" = .ok raw ∧
      Token.ofSource .empty "a @[\"x\" 2 ],& b" = .ok raw' ∧
      raw.map Token.word = raw'.map Token.word ∧
      ((∃ fragment, (ofDialect .sqlite .empty).compile "a@['x',2]&b" = .ok fragment ∧
          (ofDialect .sqlite .empty).compile "a @[\"x\" 2 ],& b" = .ok fragment) ∨
        ∃ e e', (ofDialect .sqlite .empty).compile "a@['x',2]&b" = .error e ∧
          (ofDialect .sqlite .empty).compile "a @[\"x\" 2 ],& b" = .error e' ∧
          e.message = e'.message) ∧
      ∃ us, Token.ofSource .empty (String.ofList
          (Token.respaced "a@['x',2]&b" raw [] (List.replicate 8 [',', ' ']))) = .ok us ∧
        us.map Token.word = raw.map Token.word := by
  obtain ⟨raw, hraw⟩ : ∃ raw, Token.ofSource .empty "a@['x',2]&b" = .ok raw :=
    Except.exists_of_isOk (by decide +kernel)
  obtain ⟨raw', hraw'⟩ : ∃ raw', Token.ofSource .empty "a @[\"x\" 2 ],& b" = .ok raw' :=
    Except.exists_of_isOk (by decide +kernel)
  have hwords : (Token.ofSource .empty "a@['x',2]&b").map (·.map Token.word) =
      (Token.ofSource .empty "a @[\"x\" 2 ],& b").map (·.map Token.word) := by decide +kernel
  have hlength : (Token.ofSource .empty "a@['x',2]&b").map List.length = .ok 8 := by
    decide +kernel
  rw [hraw, hraw'] at hwords
  rw [hraw] at hlength
  have hwords := Except.ok.inj hwords
  have hcomma : isGap ',' = true := by decide
  have hblank : isGap ' ' = true := by decide
  obtain ⟨hcompile, hrespaced⟩ := layout_irrelevant (ofDialect .sqlite .empty) _ raw hraw
  exact ⟨raw, raw', hraw, hraw', hwords, hcompile _ raw' hraw' hwords,
    hrespaced _ _ (by rw [Except.ok.inj hlength, List.length_replicate])
      (by simp [hcomma, hblank]) (by decide +kernel)⟩

end Compiler
end ContentFilter
