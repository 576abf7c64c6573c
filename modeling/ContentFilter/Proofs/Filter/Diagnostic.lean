import ContentFilter.Proofs.Filter.Blame
import ContentFilter.Proofs.Token.Fault
import ContentFilter.Proofs.Token.Placement
import ContentFilter.Proofs.Token.Stretch
/-!
# Where a refusal points

Every refusal of a filter points at a stretch of it, which is drawn below the filter as a row of
carets (`Compiler.exists_underlines`).  The carets never stand outside of the filter, with one
exception: a filter without tokens has nothing to point at, and one caret stands behind its end.  If
the filter has tokens, the carets go from the start of a token to the end of a token, and for a
condition that is refused they are those of one of its tokens.

The stages of reading are taken one by one.  Scanning blames characters that it has before it;
folding blames tokens of the source; and what the reader of nodes blames are folded tokens, which
stand for segments of the source.
-/

namespace ContentFilter

open ContentFilter.Filter

/-- A refusal that concerns a stretch of the source points at it. -/
lemma ParseError.pointer_inSource (source : String) (cause : Cause) {span : Span}
    (h : 1 ≤ span.len) :
    (inSource source ⟨cause, .span span⟩).pointer = some ⟨source, span.start, span.len⟩ := by
  simp [inSource, Mark.pointer?, Pointer.ofSpan, Nat.max_eq_left h]

/-- A refusal is shown as its message, the source, and the carets. -/
lemma ParseError.text_eq {e : ParseError} {source : String} {indent width : Nat}
    (h : e.pointer = some ⟨source, indent, width⟩) :
    e.text = e.message ++ ("\n\nQuery: " ++ source ++ "\n       " ++
      String.ofList (List.replicate indent ' ' ++ List.replicate width '^')) := by
  simp only [text, diagnostic, Diagnostic.text, h, Pointer.text]

namespace Token

variable {ctx : Context} {runs : List (List Token)} {ts : List Token} {f : Flagged Cause}

/-- A clause of folded tokens is refused at one of its tokens. -/
lemma mem_tokens_of_refused (hruns : List.Forall₂ Segment runs ts)
    (hitems : ∀ t ∈ runs.flatten, t.items = []) {c : Clause} {r : Refusal}
    (hin : c.tokens <:+: ts) (h : c.condition ctx = .error r) : r.token ∈ c.tokens := by
  refine Clause.token_mem_tokens (fun t ht => ?_) h
  obtain ⟨run, hrun, hsegment⟩ := exists_run_of_mem hruns (hin.subset ht)
  exact hsegment.scalars fun u hu => hitems u (hrun.subset hu)

/-- What can be blamed in the folded tokens is a stretch of the source. -/
lemma exists_stretch_of_blames (hruns : List.Forall₂ Segment runs ts)
    (hitems : ∀ t ∈ runs.flatten, t.items = []) (h : Blames ctx ts f) :
    ∃ run span, run <:+: runs.flatten ∧ Stretch run span ∧ f.mark = .span span := by
  have htoken : ∀ t ∈ ts, ∃ run span, run <:+: runs.flatten ∧ Stretch run span ∧
      Mark.span t.span = .span span := by
    intro t ht
    obtain ⟨run, hrun, hsegment⟩ := exists_run_of_mem hruns ht
    exact ⟨run, t.span, hrun, hsegment.stretch, rfl⟩
  cases h with
  | @token t _ ht => exact htoken t ht
  | operators _ hfirst hsecond hin =>
    obtain ⟨part, hpart, hsegments⟩ := exists_run_of_infix hruns hin
    -- operators are not folded, so that they are side by side in the source as well
    rcases hsegments with _ | ⟨hrun, _ | ⟨hrun', ⟨⟩⟩⟩
    rw [hrun.eq_singleton (by simp [hfirst]), hrun'.eq_singleton (by simp [hsecond])] at hpart
    exact ⟨_, _, by simpa using hpart, .operators hfirst hsecond, rfl⟩
  | clause _ hin hrefused =>
    exact htoken _ (hin.subset (mem_tokens_of_refused hruns hitems hin hrefused))

/-- Folding leaves a parenthesis as it is. -/
lemma mem_flatten_of_leftParen {t : Token} (hruns : List.Forall₂ Segment runs ts) (ht : t ∈ ts)
    (hgroup : t.group = .leftParen) : t ∈ runs.flatten := by
  obtain ⟨run, hrun, hsegment⟩ := exists_run_of_mem hruns ht
  rwa [hsegment.eq_singleton (by simp [hgroup]), List.singleton_infix_iff] at hrun

end Token

namespace Compiler

/-- A clause of the filter is refused for the cause, at the left, operator or right token that takes
up the span. -/
def RefusesClause (c : Compiler) (query : String) (cause : ConditionCause) (span : Span) : Prop :=
  ∃ ts clause token, c.tokens query = .ok ts ∧ Derives .term clause.tokens [.clause clause] ∧
    clause.tokens <:+: ts ∧ clause.condition c.context = .error ⟨cause, token⟩ ∧
    token ∈ clause.tokens ∧ token.span = span

/-- The refusal of a filter points at a stretch of it. -/
structure Underlines (c : Compiler) (query : String) (e : ParseError) (span : Span) : Prop where
  /-- The diagram is the filter with as many carets as the stretch has characters. -/
  pointer : e.pointer = some ⟨query, span.start, span.len⟩
  /-- The refusal is shown as its message, the filter, and carets below the stretch. -/
  text : e.text = e.message ++ ("\n\nQuery: " ++ query ++ "\n       " ++
    String.ofList (List.replicate span.start ' ' ++ List.replicate span.len '^'))
  /-- There is a caret. -/
  len_pos : 1 ≤ span.len
  /-- In a filter without tokens it is a single one, behind the last character. -/
  behind : Token.ofSource c.builtins query = .ok [] → span = ⟨query.length, 1⟩
  /-- In all others the carets are below characters of the filter. -/
  inside : Token.ofSource c.builtins query ≠ .ok [] → span.stop ≤ query.length
  /-- Where there are tokens, the carets are those of a token, of a list from bracket to bracket, or
  of two operators side by side; they begin where a token begins and end where a token ends. -/
  tokens : ∀ raw, Token.ofSource c.builtins query = .ok raw → raw ≠ [] →
    (∃ run, run <:+: raw ∧ Token.Stretch run span) ∧
      (∃ t ∈ raw, t.span.start = span.start) ∧ ∃ t ∈ raw, t.span.stop = span.stop
  /-- If a condition is refused, the carets are those of its left, operator or right token. -/
  condition : ∀ cause, e.cause = .condition cause → c.RefusesClause query cause span

variable {c : Compiler} {query : String} {e : ParseError} {raw ts : List Token}

/-- A filter that cannot be cut into tokens is underlined where the scanner fails. -/
lemma exists_underlines_of_ofSource {f : Flagged LexicalCause}
    (h : Token.ofSource c.builtins query = .error f) :
    ∃ span, Underlines c query (.inSource query (f.map .lexical)) span := by
  obtain ⟨span, hmark, hpos, hstop⟩ := Scanner.exists_span_of_fault h
  obtain ⟨cause, mark⟩ := f
  obtain rfl : mark = .span span := hmark
  have hpointer := ParseError.pointer_inSource query (.lexical cause) hpos
  refine ⟨span, hpointer, ParseError.text_eq hpointer, hpos, ?_, ?_, ?_, ?_⟩
  · rw [h]
    nofun
  · intro _
    rw [← String.length_toList]
    simpa [Scanner.start] using hstop
  · rw [h]
    nofun
  · nofun

/-- A fault at a stretch of the tokens of a filter underlines the filter. -/
lemma underlines_of_stretch {cause : Cause} {run : List Token} {span : Span}
    (hraw : Token.ofSource c.builtins query = .ok raw) (hrun : run <:+: raw)
    (h : Token.Stretch run span)
    (hcondition : ∀ cause', cause = .condition cause' → c.RefusesClause query cause' span) :
    Underlines c query (.inSource query ⟨cause, .span span⟩) span := by
  have htiles := (Token.ofSource_eq_ok_iff_tiled.1 hraw).tiles
  obtain ⟨hpos, hstart, t, ht, hstop⟩ := h.ends hrun htiles
  have hpointer := ParseError.pointer_inSource query cause hpos
  refine ⟨hpointer, ParseError.text_eq hpointer, hpos, ?_, ?_, ?_, hcondition⟩
  · intro hnil
    obtain rfl := Except.ok.inj (hraw.symm.trans hnil)
    cases ht
  · intro _
    have hinside := (htiles.inside t ht).2
    simp only [String.length_toList] at hinside
    omega
  · intro raw' hraw' _
    obtain rfl := Except.ok.inj (hraw.symm.trans hraw')
    exact ⟨⟨run, hrun, h⟩, hstart, t, ht, hstop⟩

/-- A filter whose brackets are not lists is underlined where the folding fails. -/
lemma exists_underlines_of_foldBrackets {f : Flagged ListCause}
    (hraw : Token.ofSource c.builtins query = .ok raw)
    (h : Token.foldBrackets query raw = .error f) :
    ∃ span, Underlines c query (.inSource query (f.map .list)) span := by
  obtain ⟨run, span, hrun, hstretch, hmark⟩ := Token.exists_stretch_of_foldFrom h nofun
  obtain ⟨cause, mark⟩ := f
  obtain rfl : mark = .span span := hmark
  exact ⟨span, underlines_of_stretch hraw hrun hstretch nofun⟩

/-- A filter without tokens is underlined behind its end. -/
lemma underlines_of_nil (h : Token.ofSource c.builtins query = .ok []) :
    Underlines c query (.inSource query ⟨.shape .emptyFilter, .sourceEnd⟩) ⟨query.length, 1⟩ where
  pointer := rfl
  text := ParseError.text_eq rfl
  len_pos := Nat.le_refl 1
  behind := fun _ => rfl
  inside := fun hne => absurd h hne
  tokens := fun _ hraw hne => absurd (Except.ok.inj (hraw.symm.trans h)) hne
  condition := nofun

/-- A filter whose tokens are not read is underlined where the reader fails. -/
lemma exists_underlines_of_read {f : Flagged Cause}
    (hraw : Token.ofSource c.builtins query = .ok raw)
    (hfold : Token.foldBrackets query raw = .ok ts) (h : Filter.read c.context ts = .error f) :
    ∃ span, Underlines c query (.inSource query f) span := by
  have htokens := tokens_eq_ok_iff.2 ⟨raw, hraw, hfold⟩
  have htiled := Token.ofSource_eq_ok_iff_tiled.1 hraw
  have hitems := htiled.items_eq_nil
  obtain ⟨runs, rfl, hruns⟩ := (Token.folds_of_foldFrom hfold).exists_segments nofun
  by_cases hts : ts = []
  · subst hts
    obtain rfl := List.forall₂_nil_right_iff.1 hruns
    obtain rfl := Except.error.inj h
    exact ⟨_, underlines_of_nil hraw⟩
  · have hblames := blames_of_read (fun t ht hgroup =>
      Token.IsLexeme.len_of_leftParen (Scanner.exists_lexeme_of_mem_tokens hraw
        (Token.mem_flatten_of_leftParen hruns ht hgroup)) hgroup) hts h
    obtain ⟨run, span, hrun, hstretch, hmark⟩ :=
      Token.exists_stretch_of_blames hruns hitems hblames
    obtain ⟨cause, mark⟩ := f
    obtain rfl : mark = .span span := hmark
    refine ⟨span, underlines_of_stretch hraw hrun hstretch fun cause' hcause => ?_⟩
    obtain ⟨clause, t, hterm, hin, hrefused, hspan⟩ := hblames.exists_refused hcause
    exact ⟨ts, clause, t, htokens, hterm, hin, hrefused,
      Token.mem_tokens_of_refused hruns hitems hin hrefused, (Mark.span.inj hspan).symm⟩

/-- Nothing but the reading of a filter is refused. -/
lemma parse_eq_error_of_compile (h : c.compile query = .error e) : c.parse query = .error e := by
  rcases Except.bind_eq_error_iff.1 h with h | ⟨p, -, h⟩
  · rcases Except.bind_eq_error_iff.1 h with h | ⟨ns, -, h⟩
    · exact h
    · cases h
  · cases h

/-- Every refusal of a filter points at a stretch of it. -/
theorem exists_underlines (h : c.compile query = .error e) :
    ∃ span, Underlines c query e span := by
  rcases Except.bind_eq_error_iff.1 (parse_eq_error_of_compile h) with hscan | ⟨raw, hscan, hrest⟩
  · obtain ⟨f, hf, rfl⟩ := Except.mapError_eq_error_iff.1 hscan
    exact exists_underlines_of_ofSource hf
  rw [Token.scan, Except.mapError_eq_ok_iff] at hscan
  rcases Except.bind_eq_error_iff.1 hrest with hfold | ⟨ts, hfold, hread⟩
  · obtain ⟨f, hf, rfl⟩ := Except.mapError_eq_error_iff.1 hfold
    exact exists_underlines_of_foldBrackets hscan hf
  rw [Token.foldLists, Except.mapError_eq_ok_iff] at hfold
  obtain ⟨f, hf, rfl⟩ := Except.mapError_eq_error_iff.1 hread
  exact exists_underlines_of_read hscan hfold hf

/-- A list is refused by a regular expression operator: the carets go from bracket to bracket. -/
theorem exists_underlines_of_list :
    ∃ e, (ofDialect .postgres .empty).compile "ä & a ~ ['x', 2]" = .error e ∧
      e.text = "Lists are only allowed with the in (@) and not in (!@) operators\n\n" ++
        "Query: ä & a ~ ['x', 2]\n               ^^^^^^^^" ∧
      Underlines (ofDialect .postgres .empty) "ä & a ~ ['x', 2]" e ⟨8, 8⟩ := by
  have hcompile := Except.map_eq_error_iff.1 (by decide +kernel :
    ((ofDialect .postgres .empty).compile "ä & a ~ ['x', 2]").map (fun _ => ()) =
      .error ⟨.condition .listForbidden, some ⟨"ä & a ~ ['x', 2]", 8, 8⟩⟩)
  obtain ⟨⟨start, len⟩, hspan⟩ := exists_underlines hcompile
  obtain ⟨rfl, rfl⟩ : 8 = start ∧ 8 = len := by simpa using hspan.pointer
  exact ⟨_, hcompile, by decide +kernel, hspan⟩

end Compiler
end ContentFilter
