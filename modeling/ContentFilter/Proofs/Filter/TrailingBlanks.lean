import ContentFilter.Proofs.Filter.Layout
import ContentFilter.Proofs.Order.Words
/-!
# Blanks at the end

A lexeme does not end with a gap, and what it is does not depend on gaps far behind it.  So gaps at
the end of a source belong to none of its tokens: they can be written there or left out, and the
tokens are the same at the same places (`Token.ofSource_append_gaps_iff`).  A filter without the
blanks at its end is compiled to the same fragment, or it is refused as well
(`Compiler.compile_trimEnd`); only the source that the refusal shows is another.  An order-by
statement without them is compiled to the same SQL or refused in the same words
(`Compiler.order_trimEnd`).
-/

namespace ContentFilter

open Except (Rel)
open Text

/-! ## Lexemes -/

namespace Lexeme

variable {b : Builtins} {word rest text gaps : List Char} {k : Kind}

lemma Longest.of_append {form : List Char → Prop} (h : Longest form word (rest ++ gaps)) :
    Longest form word rest := by
  intro w hw hp
  refine h w hw (hp.trans ?_)
  rw [← List.append_assoc]
  exact List.prefix_append _ gaps

lemma Longest.append_gaps {form : List Char → Prop}
    (hform : ∀ w, form w → ∀ c ∈ w, isGap c = false) (hgaps : ∀ c ∈ gaps, isGap c = true)
    (h : Longest form word rest) : Longest form word (rest ++ gaps) := by
  cases gaps with
  | nil => rwa [List.append_nil]
  | cons d gaps =>
    refine h.append fun w hw hd => ?_
    have hgap := hgaps d List.mem_cons_self
    rw [hform w hw d hd] at hgap
    cases hgap

lemma endsName_append_gaps_iff (hgaps : ∀ c ∈ gaps, isGap c = true) :
    EndsName (rest ++ gaps) ↔ EndsName rest := by
  cases rest with
  | nil =>
    refine ⟨fun _ => nofun, fun _ => endsName_of_startsGap fun c hc => ?_⟩
    exact hgaps c (List.mem_of_head? hc)
  | cons c r => exact Iff.rfl

/-- A connective is not doubled by gaps. -/
lemma head?_append_gaps_ne_iff (hk : k ∈ [Kind.and, .or]) (hgaps : ∀ c ∈ gaps, isGap c = true) :
    (rest ++ gaps).head? ≠ k.symbol.toList.head? ↔ rest.head? ≠ k.symbol.toList.head? := by
  cases rest with
  | nil =>
    obtain ⟨c, hsymbol, hc⟩ : ∃ c, k.symbol.toList.head? = some c ∧ isGap c = false := by
      simp only [List.mem_cons, List.not_mem_nil, or_false] at hk
      rcases hk with rfl | rfl
      · exact ⟨'&', rfl, by decide⟩
      · exact ⟨'|', rfl, by decide⟩
    rw [hsymbol]
    refine ⟨fun _ => by simp, fun _ hhead => ?_⟩
    have hgap := hgaps c (List.mem_of_head? hhead)
    rw [hc] at hgap
    cases hgap
  | cons c r => exact Iff.rfl

/-- A lexeme is the same whether there are gaps at the end of what follows it or not. -/
lemma begins_append_gaps_iff (hgaps : ∀ c ∈ gaps, isGap c = true) :
    Begins b word (rest ++ gaps) k text ↔ Begins b word rest k text := by
  constructor
  · intro h
    cases h with
    | delimiter hk => exact .delimiter hk
    | connective hk hdouble => exact .connective hk ((head?_append_gaps_ne_iff hk hgaps).1 hdouble)
    | operator hlong => exact .operator hlong.of_append
    | number hw hlong => exact .number hw hlong.of_append
    | name hw hends => exact .name hw ((endsName_append_gaps_iff hgaps).1 hends)
    | string hq hquoted => exact .string hq hquoted
  · intro h
    cases h with
    | delimiter hk => exact .delimiter hk
    | connective hk hdouble => exact .connective hk ((head?_append_gaps_ne_iff hk hgaps).2 hdouble)
    | operator hlong => exact .operator (hlong.append_gaps (fun _ => not_isGap_of_isOperator) hgaps)
    | number hw hlong =>
      exact .number hw (hlong.append_gaps (fun _ => not_isGap_of_number) hgaps)
    | name hw hends => exact .name hw ((endsName_append_gaps_iff hgaps).2 hends)
    | string hq hquoted => exact .string hq hquoted

/-- A lexeme does not end with a gap. -/
lemma Begins.not_isGap_getLast (h : Begins b word rest k text) :
    ∀ c ∈ word.getLast?, isGap c = false := by
  have hmem : ∀ c ∈ word.getLast?, c ∈ word := fun c hc => List.mem_of_getLast? hc
  have hsymbol : ∀ k ∈ spelled, ∀ c ∈ k.symbol.toList, isGap c = false := by
    have hall : spelled.all fun k => k.symbol.toList.all fun c => !isGap c := by decide +kernel
    simpa using hall
  cases h with
  | delimiter hk =>
    refine fun c hc => hsymbol _ (mem_spelled ?_) c (hmem c hc)
    simp only [List.mem_cons, List.not_mem_nil, or_false] at hk
    rcases hk with rfl | rfl | rfl | rfl <;> decide
  | connective hk _ =>
    refine fun c hc => hsymbol _ (mem_spelled ?_) c (hmem c hc)
    simp only [List.mem_cons, List.not_mem_nil, or_false] at hk
    rcases hk with rfl | rfl <;> decide
  | @operator o _ _ =>
    exact fun c hc => hsymbol (.operator o) (mem_spelled (by simp [Kind.group])) c (hmem c hc)
  | number hw _ => exact fun c hc => not_isGap_of_number hw c (hmem c hc)
  | name hw _ => exact fun c hc => not_isGap_of_inName (hw.forall_inName c (hmem c hc))
  | @string quote body _ hq _ =>
    intro c hc
    obtain rfl : quote = c := by simpa [List.getLast?_cons] using hc
    simp only [isQuote, Bool.or_eq_true, decide_eq_true_eq] at hq
    rcases hq with (rfl | rfl) | rfl <;> decide

end Lexeme

/-! ## Tokens -/

namespace Token

variable {b : Builtins} {n : Nat} {cs gaps : List Char} {ts : List Token} {source : String}

lemma tiled_gaps (hgaps : ∀ c ∈ gaps, isGap c = true) (n : Nat) : Tiled b n gaps [] := by
  simpa using Tiled.gaps hgaps (.finish (n + gaps.length))

/-- Gaps at the end of a tiled text belong to none of its tokens. -/
lemma tiled_append_gaps_iff (hgaps : ∀ c ∈ gaps, isGap c = true) :
    Tiled b n (cs ++ gaps) ts ↔ Tiled b n cs ts := by
  constructor
  · intro h
    generalize hxs : cs ++ gaps = xs at h
    induction h generalizing cs with
    | finish =>
      obtain ⟨rfl, -⟩ := List.append_eq_nil_iff.1 hxs
      exact .finish _
    | @gap n c r ts hgap htail ih =>
      cases cs with
      | nil =>
        obtain rfl : gaps = c :: r := hxs
        obtain rfl := (tiled_gaps hgaps n).unique (.gap hgap htail)
        exact .finish n
      | cons d cs =>
        obtain ⟨rfl, hr⟩ := List.cons.inj hxs
        exact .gap hgap (ih hr)
    | @lexeme n word rest text k ts hbegins htail ih =>
      have hcs : ∃ a, cs = word ++ a ∧ rest = a ++ gaps := by
        rcases List.append_eq_append_iff.1 hxs with ⟨a, rfl, hrest⟩ | ⟨a, rfl, rfl⟩
        · -- the lexeme would end inside of the gaps
          cases a using List.reverseRecOn with
          | nil => exact ⟨[], by simp, by simpa using hrest.symm⟩
          | append_singleton a c =>
            have hgap := hgaps c (by rw [hrest]; simp)
            rw [hbegins.not_isGap_getLast c (by simp)] at hgap
            cases hgap
        · exact ⟨a, rfl, rfl⟩
      obtain ⟨a, rfl, rfl⟩ := hcs
      exact .lexeme ((Lexeme.begins_append_gaps_iff hgaps).1 hbegins) (ih rfl)
  · intro h
    induction h with
    | finish n => exact tiled_gaps hgaps n
    | gap hgap _ ih => exact .gap hgap ih
    | lexeme hbegins _ ih =>
      rw [List.append_assoc]
      exact .lexeme ((Lexeme.begins_append_gaps_iff hgaps).2 hbegins) ih

/-- Gaps at the end of a source belong to none of its tokens, and do not make it a source that has
none. -/
theorem ofSource_append_gaps_iff (hgaps : ∀ c ∈ gaps, isGap c = true) :
    ofSource b (source ++ String.ofList gaps) = .ok ts ↔ ofSource b source = .ok ts := by
  rw [ofSource_eq_ok_iff_tiled, ofSource_eq_ok_iff_tiled, String.toList_append,
    String.toList_ofList, tiled_append_gaps_iff hgaps]

end Token

/-! ## Filters -/

namespace Compiler

variable {c : Compiler} {gaps : List Char}

lemma exists_compile_eq_error (query : String) (h : ∀ ts, Token.ofSource c.builtins query ≠ .ok ts) :
    ∃ e, c.compile query = .error e := by
  cases hscan : Token.ofSource c.builtins query with
  | ok ts => exact absurd hscan (h ts)
  | error e =>
    refine ⟨.inSource query (e.map .lexical), ?_⟩
    simp only [compile, compileInto, parse, Token.scan, hscan, Except.mapError, bind, Except.bind]

/-- A filter with gaps at its end is compiled to the same fragment as without them, or both are
refused. -/
lemma compile_append_gaps_rel (query : String) (hgaps : ∀ ch ∈ gaps, isGap ch = true) :
    Rel (fun _ _ => True) Eq (c.compile query) (c.compile (query ++ String.ofList gaps)) := by
  cases hraw : Token.ofSource c.builtins query with
  | ok raw =>
    have hraw' := (Token.ofSource_append_gaps_iff hgaps).2 hraw
    exact (compile_rel_of_words hraw hraw' rfl).mono (fun _ _ _ => trivial) fun _ _ h => h
  | error e =>
    have hnone : ∀ ts, Token.ofSource c.builtins query ≠ .ok ts := by simp [hraw]
    obtain ⟨e, he⟩ := exists_compile_eq_error query hnone
    obtain ⟨e', he'⟩ := exists_compile_eq_error (query ++ String.ofList gaps) fun ts h =>
      hnone ts ((Token.ofSource_append_gaps_iff hgaps).1 h)
    rw [he, he']
    exact .error trivial

/-- A filter is compiled to the same fragment without the blanks at its end, or is refused with and
without them. -/
theorem compile_trimEnd (c : Compiler) (query : String) :
    Rel (fun _ _ => True) Eq (c.compile (String.ofList (trimEnd query.toList)))
      (c.compile query) := by
  obtain ⟨blanks, hblanks, happend⟩ := exists_trimEnd_append query.toList
  have hrel := compile_append_gaps_rel (c := c) (String.ofList (trimEnd query.toList))
    fun ch hch => Lexeme.isGap_iff.2 (.inl (hblanks ch hch))
  rwa [← String.ofList_append, happend, String.ofList_toList] at hrel

end Compiler

/-! ## Order-by statements -/

namespace OrderBy

variable {d : Dialect} {b : Builtins} {blanks : List Char}

lemma Segment.read?_append_blanks (h : ∀ c ∈ blanks, isBlank c = true) (cs : List Char) :
    read? (cs ++ blanks) = read? cs := by
  refine Option.ext fun s => ?_
  rw [read?_eq_some_iff, read?_eq_some_iff, words_append_of_blank h]

lemma clause_append_blanks (h : ∀ c ∈ blanks, isBlank c = true) (cs : List Char) :
    clause d b (cs ++ blanks) = clause d b cs := by
  rw [clause, clause, Segment.read?_append_blanks h, trim_append_of_blank h]

/-- Blanks at the end of a statement belong to its last segment, and there they do not matter. -/
lemma compile_append_blanks (h : ∀ c ∈ blanks, isBlank c = true) (statement : String) :
    compile d b (statement ++ String.ofList blanks) = compile d b statement := by
  have hcomma : ',' ∉ blanks := fun hmem => absurd (h ',' hmem) (by decide)
  obtain ⟨parts, last, hsplit, happend⟩ := exists_splitOn_append statement.toList hcomma
  rw [compile, compile, String.toList_append, String.toList_ofList, trim_append_of_blank h, hsplit,
    happend]
  simp only [List.mapM_append, List.mapM_cons, List.mapM_nil, clause_append_blanks h]

end OrderBy

/-- An order-by statement is compiled to the same SQL without the blanks at its end, or is refused
in the same words. -/
theorem Compiler.order_trimEnd (c : Compiler) (statement : String) :
    c.order (String.ofList (trimEnd statement.toList)) = c.order statement := by
  obtain ⟨blanks, hblanks, happend⟩ := exists_trimEnd_append statement.toList
  have horder := OrderBy.compile_append_blanks (d := c.dialect) (b := c.builtins) hblanks
    (String.ofList (trimEnd statement.toList))
  rw [← String.ofList_append, happend, String.ofList_toList] at horder
  exact horder.symm

end ContentFilter
