import ContentFilter.Proofs.Condition.Refusal
import Mathlib.Data.List.Infix
/-!
# What a reader of filters blames

A reader that cannot go on blames one of the tokens of the filter, two operators side by side, or
what the constructor of a condition blames in a clause (`Filter.Blames`).  A step blames tokens
that it sees (`Filter.Reader.blames_of_step`), and for none of the causes that concern the filter as
a whole (`Filter.Reader.cause_notMem_ofEnds_of_step`).  At the end of the tokens a parenthesis that
is still open is blamed by its position, so a run keeps in mind that the open positions are those of
opening parentheses; and it never ends where a term is due, because a connective is refused at the
end already (`Filter.Reader.Placed`).
-/

namespace ContentFilter
namespace Filter

variable {ctx : Context} {ts us : List Token} {e : Flagged Cause}

/-- The faults that can be found in the tokens of a filter. -/
inductive Blames (ctx : Context) (ts : List Token) : Flagged Cause → Prop
  | token {t : Token} (cause : ShapeCause) : t ∈ ts → Blames ctx ts (Reader.blame t cause)
  | operators {first second : Token} (cause : ShapeCause) :
      first.group = .operator → second.group = .operator → [first, second] <:+: ts →
      Blames ctx ts ⟨.shape cause, .span (first.span.upTo second.span)⟩
  | clause {c : Clause} {r : Refusal} :
      Derives .term c.tokens [.clause c] → c.tokens <:+: ts → c.condition ctx = .error r →
      Blames ctx ts (r.flagged.map .condition)

lemma Blames.mono (h : Blames ctx ts e) (hts : ts <:+: us) : Blames ctx us e := by
  cases h with
  | token cause ht => exact .token cause (hts.subset ht)
  | operators cause hfirst hsecond hin => exact .operators cause hfirst hsecond (hin.trans hts)
  | clause hterm hin hrefused => exact .clause hterm (hin.trans hts) hrefused

/-- Where the cause concerns a condition, a clause is refused at the token that is blamed. -/
lemma Blames.exists_refused {cause : ConditionCause} (h : Blames ctx ts e)
    (hcause : e.cause = .condition cause) :
    ∃ c t, Derives .term c.tokens [.clause c] ∧ c.tokens <:+: ts ∧
      c.condition ctx = .error ⟨cause, t⟩ ∧ e.mark = .span t.span := by
  cases h with
  | token => cases hcause
  | operators => cases hcause
  | @clause c r hterm hin hrefused =>
    obtain rfl := Cause.condition.inj hcause
    exact ⟨c, r.token, hterm, hin, hrefused, rfl⟩

namespace Reader

variable {s : Reader} {t : Token} {tail : List Token}

/-- A condition is refused exactly if its constructor refuses it, at the token it names. -/
lemma accept_bind_eq_error_iff {x : Except Refusal Node} {f : Node → Progress} :
    (do let n ← accept x; return f n) = Except.error e ↔
      ∃ r, x = .error r ∧ r.flagged.map .condition = e := by
  simp only [Except.bind_eq_error_iff, accept, Except.mapError_eq_error_iff, pure, Except.pure,
    reduceCtorEq, and_false, exists_false, or_false]

lemma blames_of_blame {u : Token} {cause : ShapeCause} (hu : u ∈ ts)
    (h : .error (blame u cause) = (.error e : Except (Flagged Cause) Progress)) :
    Blames ctx ts e := by
  obtain rfl := Except.error.inj h
  exact .token cause hu

lemma blames_of_node {c : Clause} {f : Node → Progress}
    (h : (do let n ← accept (c.node ctx); return f n) = Except.error e)
    (hterm : Derives .term c.tokens [.clause c]) (hin : c.tokens <:+: ts) : Blames ctx ts e := by
  obtain ⟨r, hr, rfl⟩ := accept_bind_eq_error_iff.1 h
  rw [Clause.node_eq, Except.map_eq_error_iff] at hr
  exact .clause hterm hin hr

lemma blames_of_readCondition (ht : t.group = .operand)
    (h : s.readCondition ctx t tail = .error e) : Blames ctx (t :: tail) e := by
  have hlone : [t] <:+: t :: tail := (List.singleton_infix_iff t _).2 List.mem_cons_self
  unfold readCondition at h
  split at h
  · exact blames_of_blame (by simp) h
  · split at h
    · exact blames_of_node (c := .lone t) h (.lone ht) hlone
    · next operator tail' =>
      split at h
      · exact blames_of_node (c := .lone t) h (.lone ht) hlone
      · exact blames_of_node (c := .lone t) h (.lone ht) hlone
      · next hoperator =>
        split at h
        · exact blames_of_blame (by simp) h
        · next right rest =>
          have htriple : [t, operator, right] <:+: t :: operator :: right :: rest :=
            ⟨[], rest, rfl⟩
          split at h
          · next hright =>
            exact blames_of_node (c := .triple t operator right) h (.triple ht hoperator hright)
              htriple
          · next hright =>
            obtain rfl := Except.error.inj h
            exact .operators _ hoperator hright ⟨[t], rest, rfl⟩
          · exact blames_of_blame (by simp) h
      · exact blames_of_blame (by simp) h
      · exact blames_of_blame (by simp) h

/-- A step that fails blames tokens that it sees. -/
theorem blames_of_step (h : s.step ctx t tail = .error e) : Blames ctx (t :: tail) e := by
  have ht : t ∈ t :: tail := List.mem_cons_self
  unfold step at h
  split at h
  · next hoperand => exact blames_of_readCondition hoperand h
  · unfold readConnective at h
    split at h
    · exact blames_of_blame ht h
    · split at h
      · exact blames_of_blame ht h
      · cases h
  · unfold readLeftParen at h
    split at h
    · exact blames_of_blame ht h
    · cases h
  · unfold readRightParen at h
    split at h
    · exact blames_of_blame ht h
    · split at h
      · exact blames_of_blame ht h
      · split at h
        · exact blames_of_blame ht h
        · cases h
  · exact blames_of_blame ht h
  · exact blames_of_blame ht h
  · exact blames_of_blame ht h

/-! ## Causes that no step finds -/

/-- The causes that concern a filter as a whole: they are found before the first token, or behind
the last one. -/
def ofEnds : List ShapeCause := [.emptyFilter, .unclosedParen, .incomplete]

lemma cause_of_blame {cause : ShapeCause} (hcause : cause ∉ (.unexpectedBracket :: ofEnds))
    (h : .error (blame t cause) = (.error e : Except (Flagged Cause) Progress)) :
    e.cause ∉ (ShapeCause.unexpectedBracket :: ofEnds).map .shape := by
  obtain rfl := Except.error.inj h
  simpa [blame] using hcause

lemma cause_of_accept {x : Except Refusal Node} {f : Node → Progress}
    (h : (do let n ← accept x; return f n) = Except.error e) :
    e.cause ∉ (ShapeCause.unexpectedBracket :: ofEnds).map .shape := by
  obtain ⟨r, -, rfl⟩ := accept_bind_eq_error_iff.1 h
  simp [Flagged.map]

/-- Where a condition is read, the next token is looked at only if there is one. -/
lemma cause_of_readCondition (h : s.readCondition ctx t tail = .error e) :
    e.cause ∉ (ShapeCause.unexpectedBracket :: ofEnds).map .shape := by
  unfold readCondition at h
  split at h
  · exact cause_of_blame (by decide) h
  · split at h
    · exact cause_of_accept h
    · split at h
      · exact cause_of_accept h
      · exact cause_of_accept h
      · split at h
        · exact cause_of_blame (by decide) h
        · split at h
          · exact cause_of_accept h
          · obtain rfl := Except.error.inj h
            simp [ofEnds]
          · exact cause_of_blame (by decide) h
      · exact cause_of_blame (by decide) h
      · exact cause_of_blame (by decide) h

lemma cause_of_readConnective (h : s.readConnective t tail = .error e) :
    e.cause ∉ (ShapeCause.unexpectedBracket :: ofEnds).map .shape := by
  unfold readConnective at h
  split at h
  · exact cause_of_blame (by decide) h
  · split at h
    · exact cause_of_blame (by decide) h
    · cases h

lemma cause_of_readLeftParen (h : s.readLeftParen t tail = .error e) :
    e.cause ∉ (ShapeCause.unexpectedBracket :: ofEnds).map .shape := by
  unfold readLeftParen at h
  split at h
  · exact cause_of_blame (by decide) h
  · cases h

lemma cause_of_readRightParen (h : s.readRightParen t tail = .error e) :
    e.cause ∉ (ShapeCause.unexpectedBracket :: ofEnds).map .shape := by
  unfold readRightParen at h
  split at h
  · exact cause_of_blame (by decide) h
  · split at h
    · exact cause_of_blame (by decide) h
    · split at h
      · exact cause_of_blame (by decide) h
      · cases h

/-- A step fails for none of the causes that concern the filter as a whole, and at a bracket only if
there is one. -/
lemma cause_notMem_ofEnds_of_step (h : s.step ctx t tail = .error e) :
    e.cause ∉ ofEnds.map .shape ∧
      (e.cause = .shape .unexpectedBracket → t.group = .leftBracket ∨ t.group = .rightBracket) := by
  have hpart : e.cause ∉ (ShapeCause.unexpectedBracket :: ofEnds).map .shape →
      e.cause ∉ ofEnds.map .shape ∧ (e.cause = .shape .unexpectedBracket →
        t.group = .leftBracket ∨ t.group = .rightBracket) := by
    intro hmem
    rw [List.map_cons, List.mem_cons, not_or] at hmem
    exact ⟨hmem.2, fun hcause => absurd hcause hmem.1⟩
  unfold step at h
  split at h
  · exact hpart (cause_of_readCondition h)
  · exact hpart (cause_of_readConnective h)
  · exact hpart (cause_of_readLeftParen h)
  · exact hpart (cause_of_readRightParen h)
  · exact hpart (cause_of_blame (by decide) h)
  · next hg =>
    obtain rfl := Except.error.inj h
    exact ⟨by simp [blame, ofEnds], fun _ => .inl hg⟩
  · next hg =>
    obtain rfl := Except.error.inj h
    exact ⟨by simp [blame, ofEnds], fun _ => .inr hg⟩

/-! ## Runs -/

/-- How a reader stands in the tokens of a filter. -/
structure Placed (full : List Token) (s : Reader) (ts : List Token) : Prop where
  /-- What is still to be read is the end of the filter. -/
  suffix : ts <:+ full
  /-- The open positions are those of opening parentheses. -/
  opened : ∀ position ∈ s.opened, ∃ t ∈ full, t.group = .leftParen ∧ t.span.start = position
  /-- A term that is due is not missing at the end, except inside of parentheses. -/
  due : s.ready = true → s.opened = [] → ts ≠ []

lemma Placed.of_steps {full : List Token} {p : Progress} (h : Placed full s (t :: tail))
    (hstep : Steps ctx s t tail p) : Placed full p.next p.rest := by
  have htail : tail <:+ full := (List.suffix_cons t tail).trans h.suffix
  cases hstep with
  | lone => exact ⟨htail, h.opened, nofun⟩
  | @triple operator right rest =>
    exact ⟨(List.suffix_append [operator, right] rest).trans htail, h.opened, nofun⟩
  | connective _ _ hne => exact ⟨htail, h.opened, fun _ _ => hne⟩
  | leftParen ht =>
    refine ⟨htail, ?_, nofun⟩
    exact List.forall_mem_cons.2 ⟨⟨t, h.suffix.subset List.mem_cons_self, ht, rfl⟩, h.opened⟩
  | rightParen _ _ hopened =>
    refine ⟨htail, fun position hp => h.opened position ?_, nofun⟩
    exact hopened ▸ List.mem_cons_of_mem _ hp

/-- A run that fails blames tokens of the filter. -/
theorem blames_of_run {full : List Token}
    (hparens : ∀ t ∈ full, t.group = .leftParen → t.span.len = 1)
    (h : s.run ctx ts = .error e) (hs : Placed full s ts) : Blames ctx full e := by
  fun_induction run ctx s ts with
  | case1 s =>
    have h := Except.map_eq_error_iff.1 h
    unfold finish at h
    split at h
    · next position _ hopened =>
      obtain ⟨t, ht, hgroup, rfl⟩ := hs.opened position (by simp [hopened])
      obtain rfl := Except.error.inj h
      rw [← hparens t ht hgroup]
      exact .token .unclosedParen ht
    · next hopened =>
      split at h
      · next hready => exact absurd rfl (hs.due hready hopened)
      · cases h
  | case2 s t tail e' hstep =>
    obtain rfl := Except.error.inj h
    exact (blames_of_step hstep).mono hs.suffix.isInfix
  | case3 s t tail p hstep ih =>
    exact ih (Except.map_eq_error_iff.1 h) (hs.of_steps (step_eq_ok_iff.1 hstep))

end Reader

/-- A filter that has tokens and is not read has one of the faults that can be found in them. -/
theorem blames_of_read (hparens : ∀ t ∈ ts, t.group = .leftParen → t.span.len = 1)
    (hts : ts ≠ []) (h : read ctx ts = .error e) : Blames ctx ts e := by
  unfold read at h
  rw [if_neg (by simpa using hts)] at h
  exact Reader.blames_of_run hparens h ⟨List.suffix_refl ts, nofun, fun _ _ => hts⟩

end Filter
end ContentFilter
