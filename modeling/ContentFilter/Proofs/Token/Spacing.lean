import ContentFilter.Proofs.Token.Placement
/-!
# Other gaps between the tokens

What a lexeme is does not depend on the gap behind it: a lexeme stays as it is if what follows it is
replaced by nothing, or by a text that begins with a blank or a comma (`Lexeme.Begins.of_gap`).  So
the words of a source can be written with other gaps between them, and also with gaps where there
were none, and give the same kinds and lexemes (`Token.ofSource_respaced`).
-/

namespace ContentFilter

open Text

namespace Lexeme

/-- The text is empty, or begins with a gap. -/
def StartsGap (rest : List Char) : Prop := ∀ c ∈ rest.head?, isGap c = true

variable {b : Builtins} {word rest rest' text : List Char} {k : Kind} {c : Char}

/-! ## No lexeme reaches over a gap -/

lemma isGap_iff : isGap c = true ↔ isBlank c = true ∨ c = ',' := by
  simp [isGap]

/-- A blank or a comma does not go on a name. -/
lemma endsName_of_startsGap (h : StartsGap rest) : EndsName rest := by
  intro c hc
  rcases isGap_iff.1 (h c hc) with hb | rfl
  · have hletter : isLetter c = false := by
      by_contra hl
      rw [not_isBlank (.inl (by simpa using hl))] at hb
      cases hb
    have hall : blankCodes.all fun n => let c := Char.ofNat n
        !(isNumeral c || c = '_' || c = '-' || c = '.' || isWildcard c) := by
      decide +kernel
    have hother := List.all_eq_true.1 hall _ (mem_blankCodes hb)
    simpa [isNameChar, isAlnum, hletter, and_assoc] using hother
  · decide

lemma not_isGap_of_isOperator (h : IsOperator word) : ∀ c ∈ word, isGap c = false := by
  obtain ⟨o, rfl⟩ := h
  have hall : spelled.all fun k => k.symbol.toList.all fun c => !isGap c := by decide +kernel
  have ho := List.all_eq_true.1 hall _ (mem_spelled (k := .operator o) (by simp [Kind.group]))
  simpa [Kind.symbol] using ho

lemma not_isGap_of_number (h : Number word) : ∀ c ∈ word, isGap c = false := by
  intro c hc
  have hchar := h.forall_isNumberChar c hc
  simp only [isNumberChar, Bool.or_eq_true, decide_eq_true_eq] at hchar
  by_contra hgap
  rw [Bool.not_eq_false, isGap_iff] at hgap
  rcases hgap with hb | rfl
  · rcases hchar with (hd | rfl) | rfl
    · rw [not_isBlank (.inr (.inr hd))] at hb
      cases hb
    · revert hb
      decide
    · revert hb
      decide
  · revert hchar
    decide

/-- Nothing longer than the word can stand there, if it has no gap in it. -/
lemma longest_of_startsGap {form : List Char → Prop}
    (hform : ∀ w, form w → ∀ c ∈ w, isGap c = false) (h : StartsGap rest) :
    Longest form word rest := by
  intro w hw hp
  cases rest with
  | nil => simpa using hp.length_le
  | cons d r =>
    have hd : d ∉ w := fun hd => by
      have hgap := h d rfl
      rw [hform w hw d hd] at hgap
      cases hgap
    exact (prefix_of_prefix_append hd hp).length_le

/-- A lexeme is the same in front of a gap. -/
lemma Begins.of_gap (h : Begins b word rest k text) (hgap : StartsGap rest') :
    Begins b word rest' k text := by
  cases h with
  | delimiter hmem => exact .delimiter hmem
  | connective hmem _ =>
    refine .connective hmem fun hhead => ?_
    simp only [List.mem_cons, List.not_mem_nil, or_false] at hmem
    rcases hmem with rfl | rfl
    · exact absurd (hgap '&' hhead) (by decide)
    · exact absurd (hgap '|' hhead) (by decide)
  | operator _ => exact .operator (longest_of_startsGap (fun _ => not_isGap_of_isOperator) hgap)
  | number hw _ => exact .number hw (longest_of_startsGap (fun _ => not_isGap_of_number) hgap)
  | name hw _ => exact .name hw (endsName_of_startsGap hgap)
  | string hq hquoted => exact .string hq hquoted

end Lexeme

namespace Token

open Lexeme (StartsGap Begins)

/-- What a token is, apart from its place. -/
def word (t : Token) : Kind × String := (t.kind, t.lexeme)

/-- The stretches of a source at some tokens, with the given gaps in front of the first one and
behind each. -/
def respaced (source : String) (ts : List Token) (lead : List Char) (gaps : List (List Char)) :
    List Char :=
  lead ++ (List.zipWith (fun t gap => (slice source t.span).toList ++ gap) ts gaps).flatten

variable {b : Builtins} {n : Nat} {cs : List Char} {ts : List Token}

/-- The stretch of a token begins with its lexeme. -/
lemma Tiled.exists_begins {source : String} (h : Tiled b n cs ts)
    (hcs : source.toList.drop n = cs) :
    ∀ t ∈ ts, ∃ rest, Begins b (slice source t.span).toList rest t.kind t.lexeme.toList := by
  induction h with
  | finish => simp
  | @gap n c r ts _ _ ih =>
    refine ih ?_
    rw [← List.drop_drop, hcs, List.drop_one, List.tail_cons]
  | @lexeme n word rest text k ts hbegins _ ih =>
    intro t ht
    rcases List.mem_cons.1 ht with rfl | ht
    · refine ⟨rest, ?_⟩
      have hslice : (slice source ⟨n, word.length⟩).toList = word := by
        simp [slice, hcs]
      rw [plain, hslice, String.toList_ofList]
      exact hbegins
    · refine ih ?_ t ht
      rw [← List.drop_drop, hcs, List.drop_left]

/-- A gap in front of a tiled text makes no difference to its tokens. -/
lemma Tiled.gaps {gap : List Char} (hgap : ∀ c ∈ gap, isGap c = true)
    (h : Tiled b (n + gap.length) cs ts) : Tiled b n (gap ++ cs) ts := by
  induction gap generalizing n with
  | nil => exact h
  | cons c gap ih =>
    refine .gap (hgap c List.mem_cons_self) (ih (fun d hd => hgap d (List.mem_cons_of_mem c hd)) ?_)
    rwa [List.length_cons, Nat.add_comm gap.length 1, ← Nat.add_assoc] at h

lemma startsGap_of_ne_nil {gap : List Char} (hgap : ∀ c ∈ gap, isGap c = true) (hne : gap ≠ [])
    (rest : List Char) : StartsGap (gap ++ rest) := by
  cases gap with
  | nil => exact absurd rfl hne
  | cons c gap =>
    intro d hd
    obtain rfl := Option.some.inj hd
    exact hgap c List.mem_cons_self

/-- Lexemes with gaps behind them, none of which is empty but perhaps the last, tile a text. -/
lemma exists_tiled_respaced {source : String} {gaps : List (List Char)}
    (hbegins : ∀ t ∈ ts, ∃ rest,
      Begins b (slice source t.span).toList rest t.kind t.lexeme.toList)
    (hlength : gaps.length = ts.length) (hgaps : ∀ gap ∈ gaps, ∀ c ∈ gap, isGap c = true)
    (hne : ∀ gap ∈ gaps.dropLast, gap ≠ []) (n : Nat) :
    ∃ us, Tiled b n (respaced source ts [] gaps) us ∧ us.map word = ts.map word := by
  induction ts generalizing gaps n with
  | nil => exact ⟨[], .finish n, rfl⟩
  | cons t ts ih =>
    obtain ⟨gap, gaps, rfl⟩ := List.exists_cons_of_length_eq_add_one hlength
    obtain ⟨⟨rest, ht⟩, htail⟩ := List.forall_mem_cons.1 hbegins
    obtain ⟨hgap, hgaps⟩ := List.forall_mem_cons.1 hgaps
    have hlength' : gaps.length = ts.length := by simpa using hlength
    have hne' : ∀ g ∈ gaps.dropLast, g ≠ [] := by
      intro g hg
      cases gaps with
      | nil => simp at hg
      | cons g' gaps => exact hne g (List.mem_cons_of_mem _ hg)
    obtain ⟨us, hus, hwords⟩ := ih htail hlength' hgaps hne'
      (n + (slice source t.span).toList.length + gap.length)
    -- the gap behind the first word is empty only if no other word follows
    have hstarts : StartsGap (gap ++ respaced source ts [] gaps) := by
      cases gaps with
      | nil =>
        cases gap with
        | nil => simp [respaced, StartsGap]
        | cons c gap => exact startsGap_of_ne_nil hgap (by simp) _
      | cons g gaps => exact startsGap_of_ne_nil hgap (hne gap (by simp)) _
    have htiled := Tiled.lexeme (ht.of_gap hstarts) (Tiled.gaps hgap hus)
    have hrespaced : respaced source (t :: ts) [] (gap :: gaps) =
        (slice source t.span).toList ++ (gap ++ respaced source ts [] gaps) := by
      simp [respaced]
    rw [hrespaced]
    refine ⟨_, htiled, ?_⟩
    rw [List.map_cons, List.map_cons, hwords, word, plain, String.ofList_toList, word]

/-- The words of a source, written with other gaps between them, are scanned as the same kinds and
lexemes. -/
theorem ofSource_respaced {source : String} {lead : List Char} {gaps : List (List Char)}
    (h : ofSource b source = .ok ts) (hlength : gaps.length = ts.length)
    (hgaps : ∀ gap ∈ lead :: gaps, ∀ c ∈ gap, isGap c = true)
    (hne : ∀ gap ∈ gaps.dropLast, gap ≠ []) :
    ∃ us, ofSource b (String.ofList (respaced source ts lead gaps)) = .ok us ∧
      us.map word = ts.map word := by
  obtain ⟨hlead, hgaps⟩ := List.forall_mem_cons.1 hgaps
  have hbegins := (ofSource_eq_ok_iff_tiled.1 h).exists_begins rfl
  obtain ⟨us, hus, hwords⟩ := exists_tiled_respaced hbegins hlength hgaps hne (0 + lead.length)
  refine ⟨us, ofSource_eq_ok_iff_tiled.2 ?_, hwords⟩
  rw [String.toList_ofList]
  exact Tiled.gaps hlead hus

end Token
end ContentFilter
