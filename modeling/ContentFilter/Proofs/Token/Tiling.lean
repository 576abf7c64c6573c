import ContentFilter.Proofs.Token.Grammar
import ContentFilter.Token.Scan
/-!
# Tokens tile the source

A source is tiled if it is a sequence of gaps and lexemes (`Token.Tiled`); the tokens are the
lexemes with their places.  The tokens of a source are those of its tiling, and a source without a
tiling is refused (`Token.ofSource_eq_ok_iff_tiled`).  In a tiling the spans follow each other
without overlap, and only gaps are left between them (`Token.Tiles`).
-/

namespace ContentFilter

open Text

namespace Token

/-- A source from a given position on, as a sequence of gaps and lexemes. -/
inductive Tiled (b : Builtins) : Nat → List Char → List Token → Prop
  | finish (n : Nat) : Tiled b n [] []
  | gap {n : Nat} {c : Char} {r : List Char} {ts : List Token} :
      isGap c = true → Tiled b (n + 1) r ts → Tiled b n (c :: r) ts
  | lexeme {n : Nat} {word rest text : List Char} {k : Kind} {ts : List Token} :
      Lexeme.Begins b word rest k text → Tiled b (n + word.length) rest ts →
      Tiled b n (word ++ rest) (plain k ⟨n, word.length⟩ (String.ofList text) :: ts)

/-- Tokens in a source, from a given position on: they follow each other, and only gaps are left
between them. -/
structure Tiles (n : Nat) (cs : List Char) (ts : List Token) : Prop where
  /-- No token is empty. -/
  len_pos : ∀ t ∈ ts, 1 ≤ t.span.len
  /-- The positions are strictly increasing. -/
  increasing : ts.Pairwise fun t u => t.span.start < u.span.start
  /-- No two tokens overlap. -/
  disjoint : ts.Pairwise fun t u => t.span.stop ≤ u.span.start
  /-- Every token lies in the source. -/
  inside : ∀ t ∈ ts, n ≤ t.span.start ∧ t.span.stop ≤ n + cs.length
  /-- Every character outside the tokens belongs to a gap. -/
  gaps : ∀ i c, cs[i]? = some c → (∀ t ∈ ts, ¬(t.span.start ≤ n + i ∧ n + i < t.span.stop)) →
    isGap c = true

end Token

namespace Scanner

variable {b : Builtins} {n : Nat} {c : Char} {r : List Char}

lemma tokens_eq (s : Scanner) :
    s.tokens b = match s.step b with
      | .finished => .ok []
      | .token t next => (next.tokens b).map (t :: ·)
      | .fault e _ => .error e := by
  rw [tokens]
  split
  · next h => rw [h]
  · next h => rw [h]
  · next h => rw [h]

lemma tokens_nil : (⟨n, []⟩ : Scanner).tokens b = .ok [] := by
  rw [tokens_eq]
  rfl

/-- A gap before the next token makes no difference. -/
lemma tokens_gap (h : isGap c = true) :
    (⟨n, c :: r⟩ : Scanner).tokens b = (⟨n + 1, r⟩ : Scanner).tokens b := by
  have hskip : (⟨n, c :: r⟩ : Scanner).skipGap = (⟨n + 1, r⟩ : Scanner).skipGap := by
    simp [skipGap, advance, h, Nat.add_comm, Nat.add_left_comm]
  rw [tokens_eq, tokens_eq, step, hskip, ← step]

/-- Without a gap, the next token is the lexeme at hand. -/
lemma tokens_lexeme (h : isGap c = false) :
    (⟨n, c :: r⟩ : Scanner).tokens b =
      match Lexeme.read b c r with
      | .ok l => ((⟨n + l.len, (c :: r).drop l.len⟩ : Scanner).tokens b).map (tokenAt n l :: ·)
      | .error m => .error (faultAt n m) := by
  have hskip : (⟨n, c :: r⟩ : Scanner).skipGap = ⟨n, c :: r⟩ := by
    simp [skipGap, advance, h]
  rw [tokens_eq, step, hskip]
  cases hread : Lexeme.read b c r with
  | ok l =>
    simp only [hread]
    rfl
  | error m => simp only [hread]

end Scanner

namespace Token

variable {b : Builtins} {n : Nat} {cs : List Char} {ts us : List Token}

/-- A point begins neither a gap nor a lexeme. -/
lemma Tiled.head_ne_point (h : Tiled b n cs ts) : cs.head? ≠ some '.' := by
  cases h with
  | finish => simp
  | gap hgap _ =>
    rintro hhead
    obtain rfl := Option.some.inj hhead
    revert hgap
    decide
  | lexeme hbegins _ =>
    obtain ⟨c, r, rfl, -, -, hpoint⟩ := hbegins.exists_cons
    simpa using hpoint

/-- The tokens of a tiled source are those of its tiling. -/
lemma Tiled.tokens (h : Tiled b n cs ts) : (⟨n, cs⟩ : Scanner).tokens b = .ok ts := by
  induction h with
  | finish => exact Scanner.tokens_nil
  | gap hgap _ ih => rw [Scanner.tokens_gap hgap, ih]
  | @lexeme n word rest text k ts hbegins htiled ih =>
    obtain ⟨c, r, rfl, hblank, hcomma, -⟩ := hbegins.exists_cons
    have hread : Lexeme.read b c (r ++ rest) = _ := hbegins.read htiled.head_ne_point rfl
    rw [List.cons_append, Scanner.tokens_lexeme (by simp [isGap, hblank, hcomma]),
      ← List.cons_append, hread]
    simp only [List.drop_left, ih]
    rfl

/-- A source that has tokens is tiled by them. -/
lemma tiled_of_tokens {s : Scanner} (h : s.tokens b = .ok ts) :
    Tiled b s.position s.rest ts := by
  obtain ⟨n, cs⟩ := s
  induction hlen : cs.length using Nat.strong_induction_on generalizing n cs ts with
  | _ m ih =>
  cases cs with
  | nil =>
    obtain rfl := Except.ok.inj (Scanner.tokens_nil.symm.trans h)
    exact .finish n
  | cons c r =>
    cases hgap : isGap c with
    | true =>
      rw [Scanner.tokens_gap hgap] at h
      exact .gap hgap (ih r.length (by simp [← hlen]) _ _ h rfl)
    | false =>
      rw [Scanner.tokens_lexeme hgap] at h
      cases hread : Lexeme.read b c r with
      | error m => simp [hread] at h
      | ok l =>
        simp only [hread] at h
        obtain ⟨us, htail, rfl⟩ := Except.map_eq_ok_iff.1 h
        obtain ⟨word, rest, hsplit, hword, hbegins⟩ := Lexeme.begins_of_read (b := b) hread
        have hpos := Lexeme.read_len_pos hread
        rw [hsplit, hword, List.drop_left] at htail
        have hrest : rest.length < m := by
          have := congrArg List.length hsplit
          simp only [List.length_cons, List.length_append] at this hlen
          omega
        have := Tiled.lexeme (n := n) hbegins (ih _ hrest _ _ htail rfl)
        rw [← hsplit, ← hword] at this
        exact this

/-- The tokens of a source are those of its tiling, and a source without one is refused. -/
lemma ofSource_eq_ok_iff_tiled {source : String} :
    ofSource b source = .ok ts ↔ Tiled b 0 source.toList ts :=
  ⟨tiled_of_tokens, Tiled.tokens⟩

/-- A source is tiled in one way only. -/
lemma Tiled.unique (h : Tiled b n cs ts) (h' : Tiled b n cs us) : ts = us :=
  Except.ok.inj (h.tokens.symm.trans h'.tokens)

/-- One more character that belongs to a gap. -/
lemma Tiles.gap {c : Char} (hgap : isGap c = true) (h : Tiles (n + 1) cs ts) :
    Tiles n (c :: cs) ts where
  len_pos := h.len_pos
  increasing := h.increasing
  disjoint := h.disjoint
  inside := by
    intro t ht
    have := h.inside t ht
    simp only [List.length_cons]
    omega
  gaps := by
    intro i d hd hfree
    cases i with
    | zero =>
      obtain rfl := Option.some.inj hd
      exact hgap
    | succ i =>
      refine h.gaps i d (by simpa using hd) fun t ht hin => hfree t ht ?_
      omega

/-- One more token. -/
lemma Tiles.lexeme {word rest : List Char} {t : Token} (hspan : t.span = ⟨n, word.length⟩)
    (hpos : 1 ≤ word.length) (h : Tiles (n + word.length) rest ts) :
    Tiles n (word ++ rest) (t :: ts) where
  len_pos := by
    simpa [hspan, hpos] using h.len_pos
  increasing := by
    refine .cons (fun u hu => ?_) h.increasing
    have := (h.inside u hu).1
    rw [hspan]
    simp only
    omega
  disjoint := by
    refine .cons (fun u hu => ?_) h.disjoint
    rw [hspan]
    exact (h.inside u hu).1
  inside := by
    intro u hu
    rw [List.length_append]
    rcases List.mem_cons.1 hu with rfl | hu
    · rw [hspan]
      simp only [Span.stop]
      omega
    · have := h.inside u hu
      omega
  gaps := by
    intro i d hd hfree
    have hbehind : word.length ≤ i := by
      have := hfree t List.mem_cons_self
      rw [hspan] at this
      simp only [Span.stop] at this
      omega
    rw [List.getElem?_append_right hbehind] at hd
    refine h.gaps _ d hd fun u hu hin => hfree u (List.mem_cons_of_mem _ hu) ?_
    omega

/-- The tokens of a tiling follow each other, with gaps between them. -/
lemma Tiled.tiles (h : Tiled b n cs ts) : Tiles n cs ts := by
  induction h with
  | finish => exact ⟨by simp, .nil, .nil, by simp, by simp⟩
  | gap hgap _ ih => exact .gap hgap ih
  | lexeme hbegins _ ih =>
    refine .lexeme rfl ?_ ih
    obtain ⟨c, r, rfl, -⟩ := hbegins.exists_cons
    simp

/-- A source has tokens exactly if it is a sequence of gaps and lexemes; the tokens are then those
of this sequence, which is the only one, and they tile the source. -/
theorem ofSource_tiles (b : Builtins) (source : String) :
    (∀ ts, ofSource b source = .ok ts ↔ Tiled b 0 source.toList ts) ∧
      (∀ ts us, Tiled b 0 source.toList ts → Tiled b 0 source.toList us → ts = us) ∧
      ∀ ts, ofSource b source = .ok ts → Tiles 0 source.toList ts :=
  ⟨fun _ => ofSource_eq_ok_iff_tiled, fun _ _ h h' => h.unique h',
    fun _ h => (ofSource_eq_ok_iff_tiled.1 h).tiles⟩

end Token
end ContentFilter
