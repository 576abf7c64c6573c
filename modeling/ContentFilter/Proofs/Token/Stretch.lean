import ContentFilter.Proofs.Token.Tiling
import ContentFilter.Proofs.Token.Source
import Mathlib.Data.List.Infix
/-!
# Stretches of a source

What a diagnostic underlines, once a source is cut into tokens, is a token, a list from bracket to
bracket, or two operators side by side (`Token.Stretch`).  Such a stretch begins where a token
begins and ends where a token ends (`Token.Stretch.ends`).

When the brackets are folded, each token that is left stands for itself or for a list
(`Token.Segment`), so what is found out about the tokens that are left can be said about the tokens
of the source.  The folding itself fails at a stretch as well (`Token.exists_stretch_of_foldFrom`):
what it has read and not yet given out is the open list, and with it in front, the tokens that are
still to come are a part of those of the source.
-/

namespace ContentFilter

/-- The stretch from one stretch to another behind it ends where the second one ends. -/
lemma Span.upTo_ends {s t : Span} (hpos : 1 ≤ s.len) (h : s.stop ≤ t.start) :
    1 ≤ (s.upTo t).len ∧ (s.upTo t).stop = t.stop := by
  simp only [upTo, stop] at h ⊢
  omega

/-- A parenthesis or a bracket is told by its group. -/
lemma Kind.group_eq_iff {k j : Kind}
    (hj : j ∈ [leftParen, rightParen, leftBracket, rightBracket]) : k.group = j.group ↔ k = j := by
  simp only [List.mem_cons, List.not_mem_nil, or_false] at hj
  rcases hj with rfl | rfl | rfl | rfl <;> cases k <;> simp [group]

namespace Lexeme

/-- A name is an operand. -/
lemma group_classify (b : Builtins) (name : List Char) : (classify b name).group = .operand := by
  have hall : ∀ k ∈ nameKinds, k.group = .operand := by decide
  exact hall _ (classify_mem b name)

/-- A delimiter, a connective or an operator is its spelling. -/
lemma Begins.of_symbol {b : Builtins} {word rest text : List Char} {k : Kind}
    (h : Begins b word rest k text) (hk : k.group ≠ .operand) :
    word = k.symbol.toList ∧ text = k.symbol.toList := by
  cases h with
  | delimiter _ => exact ⟨rfl, rfl⟩
  | connective _ _ => exact ⟨rfl, rfl⟩
  | operator _ => exact ⟨rfl, rfl⟩
  | number _ _ => exact absurd rfl hk
  | name _ _ => exact absurd (group_classify b word) hk
  | string _ _ => exact absurd rfl hk

/-- No lexeme is a list. -/
lemma Begins.kind_ne_list {b : Builtins} {word rest text : List Char} {k : Kind}
    (h : Begins b word rest k text) : k ≠ .list := by
  cases h with
  | number _ _ => simp
  | name _ _ => exact classify_ne b word (by decide)
  | delimiter hmem =>
    rintro rfl
    simp at hmem
  | connective hmem _ =>
    rintro rfl
    simp at hmem
  | operator _ => simp
  | string _ _ => simp

end Lexeme

namespace Token

variable {n : Nat} {cs : List Char} {raw run ts us : List Token} {span : Span}

/-- The runs of tokens that a diagnostic underlines, each with the stretch it takes up. -/
inductive Stretch : List Token → Span → Prop
  | token (t : Token) : Stretch [t] t.span
  /-- A list, perhaps an empty one. -/
  | brackets {opening closing : Token} {items : List Token} :
      opening.group = .leftBracket → closing.group = .rightBracket →
      (∀ t ∈ items, t.group = .operand) →
      Stretch (opening :: (items ++ [closing])) (opening.span.upTo closing.span)
  | operators {first second : Token} :
      first.group = .operator → second.group = .operator →
      Stretch [first, second] (first.span.upTo second.span)

/-- Two tokens of a source and the tokens between them take up the stretch from the start of the
first one to the end of the second one. -/
lemma Tiles.upTo_ends {first last : Token} (middle : List Token) (h : Tiles n cs raw)
    (hrun : first :: (middle ++ [last]) <:+: raw) :
    1 ≤ (first.span.upTo last.span).len ∧
      (first.span.upTo last.span).stop = last.span.stop := by
  have hfirst : first ∈ raw := hrun.subset List.mem_cons_self
  have hdisjoint := List.rel_of_pairwise_cons (h.disjoint.sublist hrun.sublist)
    (List.mem_append_right middle (List.mem_singleton_self last))
  exact Span.upTo_ends (h.len_pos first hfirst) hdisjoint

/-- A stretch of a source is not empty, begins where a token begins, and ends where a token
ends. -/
theorem Stretch.ends (h : Stretch run span) (hrun : run <:+: raw) (htiles : Tiles n cs raw) :
    1 ≤ span.len ∧ (∃ t ∈ raw, t.span.start = span.start) ∧
      ∃ t ∈ raw, t.span.stop = span.stop := by
  cases h with
  | token t =>
    have ht : t ∈ raw := hrun.subset (List.mem_singleton_self t)
    exact ⟨htiles.len_pos t ht, ⟨t, ht, rfl⟩, t, ht, rfl⟩
  | @brackets opening closing items =>
    obtain ⟨hpos, hstop⟩ := htiles.upTo_ends items hrun
    exact ⟨hpos, ⟨opening, hrun.subset (by simp), rfl⟩, closing, hrun.subset (by simp), hstop.symm⟩
  | @operators first second =>
    obtain ⟨hpos, hstop⟩ := htiles.upTo_ends [] hrun
    exact ⟨hpos, ⟨first, hrun.subset (by simp), rfl⟩, second, hrun.subset (by simp), hstop.symm⟩

section

variable {b : Builtins} {t : Token}

/-- No token of a source is a list. -/
lemma IsLexeme.kind_ne_list (h : IsLexeme b t) : t.kind ≠ .list := by
  obtain ⟨c, r, l, position, hl, rfl⟩ := h
  obtain ⟨word, rest, -, -, hbegins⟩ := Lexeme.begins_of_read hl
  exact hbegins.kind_ne_list

/-- A delimiter, a connective or an operator takes up its spelling. -/
lemma IsLexeme.eq_symbol (h : IsLexeme b t) (hk : t.kind.group ≠ .operand) :
    t = plain t.kind ⟨t.span.start, t.kind.symbol.length⟩ t.kind.symbol := by
  obtain ⟨c, r, l, position, hl, rfl⟩ := h
  obtain ⟨word, rest, -, hlen, hbegins⟩ := Lexeme.begins_of_read hl
  obtain ⟨hword, htext⟩ := hbegins.of_symbol hk
  simp only [Scanner.tokenAt, plain, htext, hlen, hword, String.ofList_toList,
    String.length_toList]

/-- An opening parenthesis takes up one character. -/
lemma IsLexeme.len_of_leftParen (h : IsLexeme b t) (hg : t.group = .leftParen) :
    t.span.len = 1 := by
  rw [FromSource.group_eq (.inl h)] at hg
  have hk : t.kind = .leftParen := (Kind.group_eq_iff (by simp)).1 hg
  rw [h.eq_symbol (by simp [hg]), hk]
  rfl

end

/-! ## Folded tokens -/

/-- The tokens that a token stands for when the brackets are folded: itself, or a list. -/
inductive Segment : List Token → Token → Prop
  | plain (t : Token) : Segment [t] t
  | list {opening closing : Token} {items : List Token} {lexeme : String} :
      opening.group = .leftBracket → closing.group = .rightBracket →
      (∀ t ∈ items, t.group = .operand ∧ t.kind.isScalar = true) →
      Segment (opening :: (items ++ [closing]))
        (ofItems (opening.span.upTo closing.span) lexeme items)

lemma Segment.stretch {t : Token} (h : Segment run t) : Stretch run t.span := by
  cases h with
  | plain => exact .token t
  | list hopening hclosing hitems =>
    exact .brackets hopening hclosing fun i hi => (hitems i hi).1

lemma Segment.eq_singleton {t : Token} (h : Segment run t) (ht : t.group ≠ .operand) :
    run = [t] := by
  cases h with
  | plain => rfl
  | list => exact absurd rfl ht

/-- The elements of a list are scalars, if the tokens of the source are not lists. -/
lemma Segment.scalars {t : Token} (h : Segment run t) (hrun : ∀ u ∈ run, u.items = []) :
    ∀ i ∈ t.items, i.kind.isScalar = true := by
  cases h with
  | plain =>
    rw [hrun t (List.mem_singleton_self t)]
    intro i hi
    cases hi
  | list _ _ hitems => exact fun i hi => (hitems i hi).2

/-- An open list has a bracket in front, and scalars only behind it. -/
structure OpenList.Sound (o : OpenList) : Prop where
  bracket : o.bracket.group = .leftBracket
  scalars : ∀ t ∈ o.read, t.group = .operand ∧ t.kind.isScalar = true

/-- The tokens that are read and not yet given out. -/
def pending (o : Option OpenList) : List Token :=
  o.elim [] fun l => l.bracket :: l.read.reverse

lemma OpenList.Sound.push {o o' : OpenList} {t : Token} (h : o.Sound) (hpush : o.push t = .ok o') :
    o'.Sound ∧ pending (some o') = pending (some o) ++ [t] := by
  obtain ⟨hgroup, hscalar, rfl⟩ := push_eq_ok hpush
  exact ⟨⟨h.bracket, List.forall_mem_cons.2 ⟨⟨hgroup, hscalar⟩, h.scalars⟩⟩, by simp [pending]⟩

/-- A source is made of the segments of its folded tokens. -/
theorem Folds.exists_segments {source : String} {o : Option OpenList}
    (h : Folds source o ts us) (ho : ∀ l ∈ o, l.Sound) :
    ∃ runs : List (List Token), runs.flatten = pending o ++ ts ∧
      List.Forall₂ Segment runs us := by
  induction h with
  | done => exact ⟨[], rfl, .nil⟩
  | opens ht _ ih =>
    refine ih fun l hl => ?_
    obtain rfl := Option.mem_some.1 hl
    exact ⟨ht, by simp⟩
  | @closes o t list ts us ht hclose _ ih =>
    obtain ⟨runs, hflat, hruns⟩ := ih (by simp)
    obtain ⟨hbracket, hscalars⟩ := ho o rfl
    obtain rfl := OpenList.close_eq_ok hclose
    refine ⟨_, ?_, .cons (.list hbracket ht fun i hi => hscalars i (List.mem_reverse.1 hi)) hruns⟩
    simp [hflat, pending]
  | item hpush _ ih =>
    obtain ⟨hsound, hpending⟩ := (ho _ rfl).push hpush
    obtain ⟨runs, hflat, hruns⟩ := ih fun l hl => Option.mem_some.1 hl ▸ hsound
    exact ⟨runs, by rw [hflat, hpending, List.append_assoc, List.singleton_append], hruns⟩
  | @keep t ts us _ _ _ ih =>
    obtain ⟨runs, hflat, hruns⟩ := ih (by simp)
    exact ⟨[t] :: runs, by simp [hflat, pending], .cons (.plain t) hruns⟩

/-- A list that is folded has items. -/
lemma Folds.items_ne_nil {source : String} {o : Option OpenList} {u : Token}
    (h : Folds source o ts us) (hu : u ∈ us) : u ∈ ts ∨ u.items ≠ [] := by
  induction h with
  | done => simp at hu
  | opens _ _ ih => exact (ih hu).imp_left (List.mem_cons_of_mem _)
  | @closes o t list ts us _ hclose _ ih =>
    rcases List.mem_cons.1 hu with rfl | hu
    · refine .inr ?_
      unfold OpenList.close at hclose
      simp only at hclose
      split at hclose
      · cases hclose
      · next hempty =>
        obtain rfl := Except.ok.inj hclose
        simpa [ofItems] using hempty
    · exact (ih hu).imp_left (List.mem_cons_of_mem _)
  | item _ _ ih => exact (ih hu).imp_left (List.mem_cons_of_mem _)
  | keep _ _ _ ih =>
    rcases List.mem_cons.1 hu with rfl | hu
    · exact .inl List.mem_cons_self
    · exact (ih hu).imp_left (List.mem_cons_of_mem _)

/-- The tokens that a run of folded tokens stands for are a run of the source. -/
lemma exists_run_of_infix {runs : List (List Token)} {vs : List Token}
    (h : List.Forall₂ Segment runs us) (hvs : vs <:+: us) :
    ∃ part : List (List Token), part.flatten <:+: runs.flatten ∧
      List.Forall₂ Segment part vs := by
  obtain ⟨before, behind, rfl⟩ := hvs
  refine ⟨(runs.take (before ++ vs).length).drop before.length, List.IsInfix.flatten ?_, ?_⟩
  · exact (List.drop_suffix _ _).isInfix.trans (List.take_prefix _ _).isInfix
  · exact List.forall₂_drop_append _ _ _ (List.forall₂_take_append _ _ _ h)

/-- A folded token stands for a run of the source. -/
lemma exists_run_of_mem {runs : List (List Token)} {t : Token}
    (h : List.Forall₂ Segment runs us) (ht : t ∈ us) :
    ∃ run, run <:+: runs.flatten ∧ Segment run t := by
  obtain ⟨part, hpart, hsegments⟩ := exists_run_of_infix h ((List.singleton_infix_iff t us).2 ht)
  cases hsegments with
  | cons hrun hnil =>
    cases hnil
    exact ⟨_, by simpa using hpart, hrun⟩

/-! ## Faults -/

/-- A folding that fails does so at a stretch of what is read. -/
theorem exists_stretch_of_foldFrom {source : String} {o : Option OpenList}
    {e : Flagged ListCause} (h : foldFrom source o ts = .error e) (ho : ∀ l ∈ o, l.Sound) :
    ∃ run span, run <:+: pending o ++ ts ∧ Stretch run span ∧ e.mark = .span span := by
  have hflag : ∀ {t : Token} {cause : ListCause} {vs : List Token}, t ∈ vs →
      ∃ run span, run <:+: vs ∧ Stretch run span ∧ (t.flag cause).mark = .span span :=
    fun {t _ _} ht => ⟨[t], t.span, (List.singleton_infix_iff t _).2 ht, .token t, rfl⟩
  fun_induction foldFrom source o ts with
  | case1 => cases h
  | case2 o =>
    obtain rfl := Except.error.inj h
    exact hflag (by simp [pending])
  | case3 t r o =>
    obtain rfl := Except.error.inj h
    exact hflag (by simp)
  | case4 t r ht ih =>
    refine ih h fun l hl => ?_
    obtain rfl := Option.mem_some.1 hl
    exact ⟨ht, by simp⟩
  | case5 t r =>
    obtain rfl := Except.error.inj h
    exact hflag (by simp)
  | case6 t r o ht ih =>
    rcases Except.bind_eq_error_iff.1 h with h | ⟨list, -, h⟩
    · simp only [OpenList.close] at h
      split at h
      · obtain rfl := Except.error.inj h
        obtain ⟨hbracket, hscalars⟩ := ho o rfl
        have hitems : ∀ i ∈ o.read.reverse, i.group = .operand :=
          fun i hi => (hscalars i (List.mem_reverse.1 hi)).1
        exact ⟨_, _, ⟨[], r, by simp [pending]⟩, .brackets hbracket ht hitems, rfl⟩
      · cases h
    · rcases Except.bind_eq_error_iff.1 h with h | ⟨tail, -, h⟩
      · obtain ⟨run, span, hrun, hstretch, hmark⟩ := ih h (by simp)
        exact ⟨run, span, hrun.trans ⟨pending (some o) ++ [t], [], by simp [pending]⟩, hstretch,
          hmark⟩
      · cases h
  | case7 t r o _ _ ih =>
    rcases Except.bind_eq_error_iff.1 h with h | ⟨o', hpush, h⟩
    · unfold OpenList.push at h
      split at h
      · obtain rfl := Except.error.inj h
        exact hflag (by simp)
      · split at h
        · obtain rfl := Except.error.inj h
          exact hflag (by simp)
        · cases h
    · obtain ⟨hsound, hpending⟩ := (ho o rfl).push hpush
      have := ih o' h fun l hl => Option.mem_some.1 hl ▸ hsound
      rwa [hpending, List.append_assoc, List.singleton_append] at this
  | case8 t r _ _ ih =>
    rcases Except.bind_eq_error_iff.1 h with h | ⟨tail, -, h⟩
    · obtain ⟨run, span, hrun, hstretch, hmark⟩ := ih h (by simp)
      exact ⟨run, span, hrun.trans (List.suffix_cons t r).isInfix, hstretch, hmark⟩
    · cases h

end Token
end ContentFilter
