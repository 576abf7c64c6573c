import ContentFilter.Proofs.Filter.Blame
/-!
# What the reader of filters keeps in mind

The reader goes through the tokens once and keeps three things in mind: whether a term is due, the
positions of the open parentheses, and the group of the token read last.  Here these are told by
the tokens behind the reader alone (`Reader.Knows`).  A parenthesis is open if no beginning of what
follows it closes more parentheses than it opens (`unclosed`); to close one is to take the last of
them away, so the reader may keep their positions as a stack.

A reader that starts before the first token comes to stand between two parts of the filter again and
again (`Reader.Reaches`), and each time it knows what it should (`Reader.Reaches.knows`).  At the
end of the tokens it complains about the innermost of the parentheses that are open, and if there is
none then no term is due.
-/

namespace ContentFilter
namespace Filter

variable {ctx : Context} {ts us : List Token} {t : Token}

/-! ## Open parentheses -/

/-- The number of tokens in a group. -/
def countIn (g : Group) (ts : List Token) : Nat := ts.countP (·.group = g)

@[simp] lemma countIn_nil (g : Group) : countIn g [] = 0 := rfl

@[simp] lemma countIn_append (g : Group) (ts us : List Token) :
    countIn g (ts ++ us) = countIn g ts + countIn g us :=
  List.countP_append

@[simp] lemma countIn_cons (g : Group) (t : Token) (ts : List Token) :
    countIn g (t :: ts) = countIn g ts + if t.group = g then 1 else 0 := by
  simp [countIn, List.countP_cons]

/-- No beginning of the tokens closes more parentheses than it opens. -/
def Enclosed (ts : List Token) : Prop :=
  ∀ us ∈ ts.inits, countIn .rightParen us ≤ countIn .leftParen us

instance : DecidablePred Enclosed := fun ts =>
  inferInstanceAs (Decidable (∀ us ∈ ts.inits, countIn .rightParen us ≤ countIn .leftParen us))

/-- The opening parentheses that are not closed, in the order of the source: what follows one of
them closes only parentheses that it has opened itself. -/
def unclosed : List Token → List Token
  | [] => []
  | t :: ts => if t.group = .leftParen ∧ Enclosed ts then t :: unclosed ts else unclosed ts

lemma Enclosed.countIn_le (h : Enclosed ts) : countIn .rightParen ts ≤ countIn .leftParen ts :=
  h ts ((List.mem_inits ts ts).2 (List.prefix_refl ts))

lemma enclosed_concat_iff : Enclosed (ts ++ [t]) ↔
    Enclosed ts ∧ countIn .rightParen (ts ++ [t]) ≤ countIn .leftParen (ts ++ [t]) := by
  simp only [Enclosed, List.mem_inits, List.prefix_concat_iff, or_imp, forall_and, forall_eq]
  exact and_comm

/-- A token that closes nothing leaves parentheses as they are. -/
lemma enclosed_concat_of_ne (ht : t.group ≠ .rightParen) : Enclosed (ts ++ [t]) ↔ Enclosed ts := by
  rw [enclosed_concat_iff, and_iff_left_iff_imp]
  intro h
  have hle := h.countIn_le
  simp only [countIn_append, countIn_cons, countIn_nil, if_neg ht]
  omega

/-- Where no parenthesis is open, every end of the tokens closes all that it opens. -/
lemma countIn_le_of_unclosed_eq_nil (h : unclosed ts = []) :
    ∀ us, us <:+ ts → countIn .leftParen us ≤ countIn .rightParen us := by
  induction ts with
  | nil =>
    intro us hus
    rw [List.suffix_nil.1 hus]
    exact Nat.le_refl _
  | cons t ts ih =>
    rw [unclosed] at h
    split at h
    · cases h
    · next hopen =>
      have hends := ih h
      intro us hus
      rcases List.suffix_cons_iff.1 hus with rfl | hus
      · have hts := hends ts (List.suffix_refl ts)
        by_cases ht : t.group = .leftParen
        · -- a beginning of the rest closes the parenthesis, and the end behind it opens none
          have hclosed : ¬Enclosed ts := fun he => hopen ⟨ht, he⟩
          simp only [Enclosed, not_forall, List.mem_inits, exists_prop] at hclosed
          obtain ⟨before, ⟨behind, rfl⟩, hlt⟩ := hclosed
          have hbehind := hends behind (List.suffix_append before behind)
          simp only [countIn_cons, countIn_append, ht, if_true]
          omega
        · rw [countIn_cons, countIn_cons, if_neg ht]
          omega
      · exact hends us hus

lemma exists_of_unclosed_ne_nil (h : unclosed ts ≠ []) :
    ∃ before t behind, ts = before ++ t :: behind ∧ t.group = .leftParen ∧ Enclosed behind := by
  induction ts with
  | nil => exact absurd rfl h
  | cons t ts ih =>
    rw [unclosed] at h
    split at h
    · next hopen => exact ⟨[], t, ts, rfl, hopen⟩
    · obtain ⟨before, u, behind, rfl, hu⟩ := ih h
      exact ⟨t :: before, u, behind, rfl, hu⟩

/-- One more parenthesis can be closed exactly if one is open. -/
lemma Enclosed.countIn_lt_iff (h : Enclosed ts) :
    countIn .rightParen ts < countIn .leftParen ts ↔ unclosed ts ≠ [] := by
  constructor
  · intro hlt hnil
    have hle := countIn_le_of_unclosed_eq_nil hnil ts (List.suffix_refl ts)
    omega
  · intro hne
    obtain ⟨before, t, behind, rfl, ht, hbehind⟩ := exists_of_unclosed_ne_nil hne
    have hbefore := h before ((List.mem_inits _ _).2 (List.prefix_append _ _))
    have hle := hbehind.countIn_le
    simp only [countIn_append, countIn_cons, ht, if_true, reduceCtorEq, if_false]
    omega

lemma unclosed_concat_of_ne (ht : t.group ≠ .rightParen) :
    unclosed (ts ++ [t]) = unclosed ts ++ unclosed [t] := by
  induction ts with
  | nil => rfl
  | cons u ts ih =>
    simp only [List.cons_append, unclosed, enclosed_concat_of_ne ht, ih]
    split <;> rfl

/-- A parenthesis that opens is open at first. -/
lemma unclosed_concat_leftParen (ht : t.group = .leftParen) :
    unclosed (ts ++ [t]) = unclosed ts ++ [t] := by
  rw [unclosed_concat_of_ne (by simp [ht])]
  simp [unclosed, ht, Enclosed]

/-- A parenthesis that closes closes the last one that is open. -/
lemma unclosed_concat_rightParen (ht : t.group = .rightParen) :
    unclosed (ts ++ [t]) = (unclosed ts).dropLast := by
  induction ts with
  | nil => simp [unclosed, ht]
  | cons u ts ih =>
    have hconcat : Enclosed (ts ++ [t]) ↔ Enclosed ts ∧ unclosed ts ≠ [] := by
      rw [enclosed_concat_iff]
      refine and_congr_right fun h => ?_
      rw [← h.countIn_lt_iff]
      simp only [countIn_append, countIn_cons, countIn_nil, ht, if_true, reduceCtorEq, if_false]
      omega
    simp only [List.cons_append, unclosed, ih, hconcat]
    by_cases hopen : u.group = .leftParen ∧ Enclosed ts
    · rw [if_pos hopen]
      by_cases hne : unclosed ts = []
      · simp [hne]
      · rw [if_pos ⟨hopen.1, hopen.2, hne⟩, List.dropLast_cons_of_ne_nil hne]
    · rw [if_neg hopen, if_neg fun h => hopen ⟨h.1, h.2.1⟩]

/-- Tokens that are no parentheses neither open nor close any. -/
lemma unclosed_append_of_ne (hus : ∀ u ∈ us, u.group ≠ .leftParen ∧ u.group ≠ .rightParen) :
    unclosed (ts ++ us) = unclosed ts := by
  induction us generalizing ts with
  | nil => rw [List.append_nil]
  | cons u us ih =>
    obtain ⟨hu, hus⟩ := List.forall_mem_cons.1 hus
    rw [List.append_cons, ih hus, unclosed_concat_of_ne hu.2]
    simp [unclosed, hu.1]

/-! ## What the reader knows -/

namespace Reader

variable {s : Reader} {tail done used rest : List Token} {ns : List Node} {p : Progress}
  {e : Flagged Cause}

/-- What the reader keeps in mind is told by the tokens `done` behind it, and it has read as many
parentheses into the nodes `ns`. -/
structure Knows (s : Reader) (done : List Token) (ns : List Node) : Prop where
  /-- A term is due at the start, behind a parenthesis that opens, and behind a connective. -/
  ready_iff : s.ready = true ↔
    done = [] ∨ ∃ t, done.getLast? = some t ∧ (t.group = .leftParen ∨ t.group = .connective)
  /-- The open positions are those of the parentheses that are not closed, the innermost last. -/
  opened_eq : s.opened.reverse = (unclosed done).map (·.span.start)
  /-- The group that is kept is that of the last token. -/
  previous_eq : s.previous = done.getLast?.map Token.group
  /-- Of the nodes at least as many open a parenthesis as close one, and the difference is the number
  of open positions. -/
  count_eq : ns.count .leftParen = ns.count .rightParen + s.opened.length

lemma knows_initial : initial.Knows [] [] := ⟨by simp [initial], rfl, rfl, rfl⟩

/-- The tokens that a step reads are those in front of what it leaves. -/
lemma used_eq {xs : List Token} (hused : t :: tail = used ++ p.rest)
    (hxs : t :: tail = xs ++ p.rest) : used = xs :=
  List.append_cancel_right (hused.symm.trans hxs)

/-- The nodes of conditions are no parentheses. -/
lemma count_concat_condition (ns : List Node) {x : Except Refusal Condition} {d : Dialect}
    {n : Node} (hn : x.map (.condition d) = .ok n) :
    (ns ++ [n]).count .leftParen = ns.count .leftParen ∧
      (ns ++ [n]).count .rightParen = ns.count .rightParen := by
  obtain ⟨c, -, rfl⟩ := Except.map_eq_ok_iff.1 hn
  simp

/-- A step keeps what the reader knows right. -/
lemma Knows.of_steps (h : s.Knows done ns) (ht : t.group = t.kind.group)
    (hstep : Steps ctx s t tail p) (hused : t :: tail = used ++ p.rest) :
    p.next.Knows (done ++ used) (ns ++ [p.node]) := by
  have hcount := h.count_eq
  cases hstep with
  | lone hg _ _ hn =>
    obtain rfl : used = [t] := used_eq hused rfl
    obtain ⟨hleft, hright⟩ := count_concat_condition ns hn
    refine ⟨by simp [hg], ?_, by simp, by rw [hleft, hright, hcount]⟩
    rw [h.opened_eq, unclosed_append_of_ne (by simp [hg])]
  | @triple operator right _ _ hl _ ho hr hn =>
    obtain rfl : used = [t, operator, right] := used_eq hused rfl
    obtain ⟨hleft, hright⟩ := count_concat_condition ns hn
    refine ⟨by simp [hr], ?_, by simp, by rw [hleft, hright, hcount]⟩
    rw [h.opened_eq, unclosed_append_of_ne (by simp [hl, ho, hr])]
  | connective hg _ _ =>
    obtain rfl : used = [t] := used_eq hused rfl
    refine ⟨by simp [hg], ?_, by simp, by simp [ofConnective_eq ht hg, hcount]⟩
    rw [h.opened_eq, unclosed_append_of_ne (by simp [hg])]
  | leftParen hg _ =>
    obtain rfl : used = [t] := used_eq hused rfl
    refine ⟨by simp [hg], ?_, by simp, ?_⟩
    · rw [unclosed_concat_leftParen hg, List.map_append, ← h.opened_eq]
      simp
    · simp only [List.count_append, List.length_cons, hcount]
      simp
      omega
  | rightParen hg _ hopened _ =>
    obtain rfl : used = [t] := used_eq hused rfl
    refine ⟨by simp [hg], ?_, by simp, ?_⟩
    · rw [unclosed_concat_rightParen hg, List.map_dropLast, ← h.opened_eq, hopened]
      simp
    · rw [hopened, List.length_cons] at hcount
      simp only [List.count_append, hcount]
      simp
      omega

/-! ## Where the reader comes to stand -/

/-- `Reaches ctx ts done ns s rest`: from the start of the tokens `ts`, the reader comes to stand as
`s` between the tokens `done` and the tokens `rest`, and has read the nodes `ns`. -/
inductive Reaches (ctx : Context) (ts : List Token) :
    List Token → List Node → Reader → List Token → Prop
  | start : Reaches ctx ts [] [] initial ts
  | step {done used tail : List Token} {ns : List Node} {s : Reader} {t : Token} {p : Progress} :
      Reaches ctx ts done ns s (t :: tail) → s.step ctx t tail = .ok p →
      t :: tail = used ++ p.rest →
      Reaches ctx ts (done ++ used) (ns ++ [p.node]) p.next p.rest

lemma exists_used (h : Steps ctx s t tail p) : ∃ used, t :: tail = used ++ p.rest := by
  cases h with
  | lone => exact ⟨[t], rfl⟩
  | @triple operator right => exact ⟨[t, operator, right], rfl⟩
  | connective => exact ⟨[t], rfl⟩
  | leftParen => exact ⟨[t], rfl⟩
  | rightParen => exact ⟨[t], rfl⟩

namespace Reaches

lemma append_eq (h : Reaches ctx ts done ns s rest) : done ++ rest = ts := by
  induction h with
  | start => rfl
  | step _ _ hused ih => rw [List.append_assoc, ← hused, ih]

/-- Wherever the reader comes to stand, it knows what it should. -/
lemma knows (hts : Grouped ts) (h : Reaches ctx ts done ns s rest) : s.Knows done ns := by
  induction h with
  | start => exact knows_initial
  | @step done _ tail _ _ t _ hreaches hstep hused ih =>
    have ht : t ∈ ts := by
      rw [← hreaches.append_eq]
      simp
    exact ih.of_steps (hts t ht) (step_eq_ok_iff.1 hstep) hused

lemma placed (hne : ts ≠ []) (h : Reaches ctx ts done ns s rest) : Placed ts s rest := by
  induction h with
  | start => exact ⟨List.suffix_refl ts, nofun, fun _ _ => hne⟩
  | step _ hstep _ ih => exact ih.of_steps (step_eq_ok_iff.1 hstep)

/-- What is still to be read decides about the filter. -/
lemma read_eq (hne : ts ≠ []) (h : Reaches ctx ts done ns s rest) :
    read ctx ts = (s.run ctx rest).map (ns ++ ·) := by
  induction h with
  | start =>
    rw [read, if_neg (by simpa using hne)]
    cases initial.run ctx ts <;> rfl
  | @step _ _ tail _ s t p _ hstep _ ih =>
    rw [ih, run_cons_of_steps (step_eq_ok_iff.1 hstep)]
    cases p.next.run ctx p.rest <;> simp [Except.map]

/-- A run that fails does so at the end of the tokens or in a step. -/
lemma exists_of_run_eq_error (h : Reaches ctx ts done ns s rest)
    (hrun : s.run ctx rest = .error e) :
    (∃ ns' s', Reaches ctx ts ts ns' s' [] ∧ s'.finish = .error e) ∨
      ∃ (s' : Reader) (t : Token) (tail : List Token), s'.step ctx t tail = .error e := by
  fun_induction run ctx s rest generalizing done ns with
  | case1 s =>
    obtain rfl : done = ts := by simpa using h.append_eq
    exact .inl ⟨ns, s, h, Except.map_eq_error_iff.1 hrun⟩
  | case2 s t tail e' hstep =>
    obtain rfl := Except.error.inj hrun
    exact .inr ⟨s, t, tail, hstep⟩
  | case3 s t tail p hstep ih =>
    obtain ⟨used, hused⟩ := exists_used (step_eq_ok_iff.1 hstep)
    exact ih (h.step hstep hused) (Except.map_eq_error_iff.1 hrun)

end Reaches

/-! ## The end of the tokens -/

/-- The innermost of the parentheses that are not closed is the one whose position is kept first. -/
lemma Knows.head?_opened (h : s.Knows done ns) :
    s.opened.head? = (unclosed done).getLast?.map (·.span.start) := by
  rw [← List.getLast?_reverse, h.opened_eq, List.getLast?_map]

lemma finish_eq_unclosedParen_iff :
    s.finish = .error e ∧ e.cause = .shape .unclosedParen ↔
      ∃ position, s.opened.head? = some position ∧
        e = ⟨.shape .unclosedParen, .span ⟨position, 1⟩⟩ := by
  unfold finish
  split
  · next position _ hopened =>
    simp only [hopened, Except.error.injEq, List.head?_cons, Option.some.injEq, exists_eq_left']
    constructor
    · rintro ⟨rfl, -⟩
      rfl
    · rintro rfl
      exact ⟨rfl, rfl⟩
  · next hopened =>
    simp only [hopened, List.head?_nil, reduceCtorEq, false_and, exists_false, iff_false, not_and]
    intro h
    split at h
    · obtain rfl := Except.error.inj h
      simp
    · cases h

/-- A filter is refused for a parenthesis that is not closed exactly if the reader comes to the end
of its tokens while one is open. -/
lemma read_eq_unclosedParen_iff (hts : Grouped ts) :
    read ctx ts = .error e ∧ e.cause = .shape .unclosedParen ↔
      ∃ ns s t, Reaches ctx ts ts ns s [] ∧ (unclosed ts).getLast? = some t ∧
        e = ⟨.shape .unclosedParen, .span ⟨t.span.start, 1⟩⟩ := by
  constructor
  · rintro ⟨h, hcause⟩
    have hne : ts ≠ [] := by
      rintro rfl
      obtain rfl := Except.error.inj h
      cases hcause
    rw [Reaches.start.read_eq hne, Except.map_eq_error_iff] at h
    rcases Reaches.start.exists_of_run_eq_error h with
      ⟨ns, s, hreaches, hfinish⟩ | ⟨s, t, tail, hstep⟩
    · obtain ⟨position, hposition, rfl⟩ := finish_eq_unclosedParen_iff.1 ⟨hfinish, hcause⟩
      rw [(hreaches.knows hts).head?_opened] at hposition
      obtain ⟨t, ht, rfl⟩ := Option.map_eq_some_iff.1 hposition
      exact ⟨ns, s, t, hreaches, ht, rfl⟩
    · exact absurd (hcause ▸ by decide) (cause_notMem_ofEnds_of_step hstep).1
  · rintro ⟨ns, s, t, hreaches, ht, rfl⟩
    have hne : ts ≠ [] := by
      rintro rfl
      cases ht
    have hopened : s.opened.head? = some t.span.start := by
      rw [(hreaches.knows hts).head?_opened, ht]
      rfl
    obtain ⟨hfinish, -⟩ := finish_eq_unclosedParen_iff.2 ⟨_, hopened, rfl⟩
    refine ⟨?_, rfl⟩
    rw [hreaches.read_eq hne, run, hfinish]
    rfl

/-- Wherever the reader comes to stand in the tokens of a filter, what it keeps in mind is told by
the tokens behind it, and what is left to read decides about the filter.  At the end of the tokens
no term is due unless a parenthesis is open; a filter is refused for such a parenthesis exactly if
the reader gets there, and then for the innermost one. -/
theorem knows_throughout (ctx : Context) (ts : List Token) (hts : Grouped ts) :
    (∀ done ns s rest, Reaches ctx ts done ns s rest →
      done ++ rest = ts ∧ s.Knows done ns ∧
        (ts ≠ [] → read ctx ts = (s.run ctx rest).map (ns ++ ·))) ∧
    (ts ≠ [] → ∀ done ns s, Reaches ctx ts done ns s [] → s.opened = [] → s.ready = false) ∧
    ∀ source e, nodes ctx source ts = .error e ∧ e.cause = .shape .unclosedParen ↔
      ∃ ns s t, Reaches ctx ts ts ns s [] ∧ (unclosed ts).getLast? = some t ∧
        e = .inSource source ⟨.shape .unclosedParen, .span ⟨t.span.start, 1⟩⟩ := by
  refine ⟨fun done ns s rest h => ⟨h.append_eq, h.knows hts, fun hne => h.read_eq hne⟩,
    fun hne done ns s h hopened => ?_, fun source e => ?_⟩
  · by_contra hready
    exact (h.placed hne).due (by simpa using hready) hopened rfl
  · rw [nodes, Except.mapError_eq_error_iff]
    constructor
    · rintro ⟨⟨f, hf, rfl⟩, hcause⟩
      obtain ⟨ns, s, t, hreaches, ht, rfl⟩ := (read_eq_unclosedParen_iff hts).1 ⟨hf, hcause⟩
      exact ⟨ns, s, t, hreaches, ht, rfl⟩
    · rintro ⟨ns, s, t, hreaches, ht, rfl⟩
      obtain ⟨hf, -⟩ := (read_eq_unclosedParen_iff hts).2 ⟨ns, s, t, hreaches, ht, rfl⟩
      exact ⟨⟨_, hf, rfl⟩, rfl⟩

/-- Two parentheses that are not closed, with one between them that is, at positions without any
order: the reader comes to the end and complains about the last one. -/
theorem knows_throughout_of_scattered_parens :
    let ts : List Token := [.plain .leftParen ⟨9, 1⟩ "(", .plain .leftParen ⟨4, 1⟩ "(",
      .plain .field ⟨5, 1⟩ "a", .plain .rightParen ⟨6, 1⟩ ")", .plain .and ⟨7, 1⟩ "&",
      .plain .leftParen ⟨2, 1⟩ "(", .plain .field ⟨3, 1⟩ "b"]
    let ctx : Context := ⟨.postgres, .empty⟩
    Grouped ts ∧ (unclosed ts).map (·.span.start) = [9, 2] ∧
      nodes ctx "((a)&(b" ts =
        .error (.inSource "((a)&(b" ⟨.shape .unclosedParen, .span ⟨2, 1⟩⟩) ∧
      ∃ ns s, Reaches ctx ts ts ns s [] ∧ s.opened = [2, 9] ∧ s.ready = false ∧
        ns.count .leftParen = ns.count .rightParen + 2 := by
  intro ts ctx
  have hts : Grouped ts := by simp [Grouped, ts, Token.plain]
  have hunclosed : (unclosed ts).map (·.span.start) = [9, 2] := by decide
  have hnodes : nodes ctx "((a)&(b" ts =
      .error (.inSource "((a)&(b" ⟨.shape .unclosedParen, .span ⟨2, 1⟩⟩) := by decide +kernel
  obtain ⟨hknows, -, hrefused⟩ := knows_throughout ctx ts hts
  obtain ⟨ns, s, t, hreaches, -, -⟩ := (hrefused _ _).1 ⟨hnodes, rfl⟩
  obtain ⟨-, h, -⟩ := hknows _ _ _ _ hreaches
  have hopened : s.opened = [2, 9] := by
    rw [← s.opened.reverse_reverse, h.opened_eq, hunclosed]
    rfl
  refine ⟨hts, hunclosed, hnodes, ns, s, hreaches, hopened, ?_, by simpa [hopened] using h.count_eq⟩
  by_contra hready
  have hdue := h.ready_iff.1 (by simpa using hready)
  simp [ts, Token.plain, Kind.group] at hdue

end Reader

end Filter
end ContentFilter
