import ContentFilter.Filter.Reader
import ContentFilter.Proofs.Filter.Grammar
import ContentFilter.Proofs.Outcome
import Mathlib.Data.List.Forall2
/-!
# Reading a filter by its grammar

The reader of filters against their grammar.  `Reader.Steps` says all that a step of the reader
can do: one rule for each way in which a step succeeds.  What a run accepts from where it stands
is what `Expects` allows there, provided that the conditions on the way are accepted by their
constructors (`Reader.run_eq_ok_iff`); so a filter is read exactly if it is an expression of the
grammar whose clauses all are conditions, and the nodes are those of its parts
(`read_eq_ok_iff`).

The reader refuses an empty pair of parentheses by looking at the token before.  Behind an opening
parenthesis a term is due in any case (`Reader.Coherent`), so this changes the wording of a
refusal only.
-/

namespace ContentFilter
namespace Filter

/-- The node of a clause, if the constructor of the condition accepts its tokens. -/
def Clause.node (ctx : Context) : Clause → Except Refusal Node
  | lone t => Node.ofLone ctx t
  | triple left operator right => Node.ofTriple ctx left operator right

/-- The node of a part.  Only a clause can be refused. -/
def Part.node (ctx : Context) : Part → Except Refusal Node
  | clause c => c.node ctx
  | connective k => .ok (.connective k)
  | leftParen => .ok .leftParen
  | rightParen => .ok .rightParen

/-- The nodes are, one by one, those of the parts. -/
def Yields (ctx : Context) (ps : List Part) (ns : List Node) : Prop :=
  List.Forall₂ (fun p n => p.node ctx = .ok n) ps ns

/-- A token of the group `connective` whose group is that of its kind stands for its kind. -/
lemma ofConnective_eq {t : Token} (ht : t.group = t.kind.group) (hg : t.group = .connective) :
    Node.ofConnective t = .connective t.kind := by
  rw [hg] at ht
  unfold Node.ofConnective
  split
  · next hk => rw [hk] at ht; cases ht
  · next hk => rw [hk] at ht; cases ht
  · rfl

namespace Reader

variable {ctx : Context} {s : Reader}

/-! ## Steps -/

/-- Whether a lone operand may end before the given tokens. -/
def EndsClause (tail : List Token) : Prop :=
  tail = [] ∨ ∃ t r, tail = t :: r ∧ (t.group = .connective ∨ t.group = .rightParen)

/-- What a step of the reader can do. -/
inductive Steps (ctx : Context) (s : Reader) : Token → List Token → Progress → Prop
  | lone {t : Token} {tail : List Token} {n : Node} :
      t.group = .operand → s.ready = true → EndsClause tail → Node.ofLone ctx t = .ok n →
      Steps ctx s t tail ⟨n, ⟨false, s.opened, some t.group⟩, tail⟩
  | triple {left operator right : Token} {rest : List Token} {n : Node} :
      left.group = .operand → s.ready = true → operator.group = .operator →
      right.group = .operand → Node.ofTriple ctx left operator right = .ok n →
      Steps ctx s left (operator :: right :: rest)
        ⟨n, ⟨false, s.opened, some right.group⟩, rest⟩
  | connective {t : Token} {tail : List Token} :
      t.group = .connective → s.ready = false → tail ≠ [] →
      Steps ctx s t tail ⟨Node.ofConnective t, ⟨true, s.opened, some t.group⟩, tail⟩
  | leftParen {t : Token} {tail : List Token} :
      t.group = .leftParen → s.ready = true →
      Steps ctx s t tail ⟨.leftParen, ⟨true, t.span.start :: s.opened, some t.group⟩, tail⟩
  | rightParen {t : Token} {tail : List Token} {position : Nat} {opened : List Nat} :
      t.group = .rightParen → s.ready = false → s.opened = position :: opened →
      s.previous ≠ some .leftParen →
      Steps ctx s t tail ⟨.rightParen, ⟨false, opened, some t.group⟩, tail⟩

/-- A condition is read exactly if its constructor accepts it. -/
lemma accept_bind_eq_ok_iff {x : Except Refusal Node} {f : Node → Progress} {p : Progress} :
    (do let n ← accept x; return f n) = Except.ok p ↔ ∃ n, x = .ok n ∧ f n = p := by
  simp only [Except.bind_eq_ok_iff, accept, Except.mapError_eq_ok_iff, pure, Except.pure,
    Except.ok.injEq]

lemma steps_of_readCondition {t : Token} {tail : List Token} {p : Progress}
    (ht : t.group = .operand) (h : s.readCondition ctx t tail = .ok p) :
    Steps ctx s t tail p := by
  unfold readCondition at h
  split at h
  · simp at h
  · next hr =>
    have hready : s.ready = true := by simpa using hr
    split at h
    · obtain ⟨n, hn, rfl⟩ := accept_bind_eq_ok_iff.1 h
      exact .lone ht hready (.inl rfl) hn
    · split at h
      · next hg =>
        obtain ⟨n, hn, rfl⟩ := accept_bind_eq_ok_iff.1 h
        exact .lone ht hready (.inr ⟨_, _, rfl, .inl hg⟩) hn
      · next hg =>
        obtain ⟨n, hn, rfl⟩ := accept_bind_eq_ok_iff.1 h
        exact .lone ht hready (.inr ⟨_, _, rfl, .inr hg⟩) hn
      · next ho =>
        split at h
        · simp at h
        · split at h
          · next hg =>
            obtain ⟨n, hn, rfl⟩ := accept_bind_eq_ok_iff.1 h
            exact .triple ht hready ho hg hn
          · simp at h
          · simp at h
      · simp at h
      · simp at h

/-- A step succeeds exactly in the ways that `Steps` lists. -/
theorem step_eq_ok_iff {t : Token} {tail : List Token} {p : Progress} :
    s.step ctx t tail = .ok p ↔ Steps ctx s t tail p := by
  constructor
  · intro h
    unfold step at h
    split at h
    · next ht => exact steps_of_readCondition ht h
    · next ht =>
      unfold readConnective at h
      split at h
      · simp at h
      · next hr =>
        split at h
        · simp at h
        · next htail =>
          obtain rfl := Except.ok.inj h
          exact .connective ht (by simpa using hr) (by simpa using htail)
    · next ht =>
      unfold readLeftParen at h
      split at h
      · simp at h
      · next hr =>
        obtain rfl := Except.ok.inj h
        exact .leftParen ht (by simpa using hr)
    · next ht =>
      unfold readRightParen at h
      split at h
      · simp at h
      · next hp =>
        split at h
        · simp at h
        · next ho =>
          split at h
          · simp at h
          · next hr =>
            obtain rfl := Except.ok.inj h
            exact .rightParen ht (by simpa using hr) ho hp
    · simp at h
    · simp at h
    · simp at h
  · intro h
    cases h with
    | lone ht hr htail hn =>
      rcases htail with rfl | ⟨u, r, rfl, hu | hu⟩ <;>
        simp only [step, ht, readCondition, hr, Bool.not_true, Bool.false_eq_true, if_false] <;>
        simp [accept, Except.mapError, bind, Except.bind, pure, Except.pure, *]
    | triple hl hr ho hg hn =>
      simp [step, readCondition, hl, hr, ho, hg, hn, accept, Except.mapError, bind, Except.bind,
        pure, Except.pure]
    | connective ht hr htail => simp [step, readConnective, ht, hr, htail]
    | leftParen ht hr => simp [step, readLeftParen, ht, hr]
    | rightParen ht hr ho hp => simp [step, readRightParen, ht, hr, ho, hp]

/-! ## Runs -/

/-- The token read last opens a parenthesis only if a term is due. -/
def Coherent (s : Reader) : Prop := s.previous = some .leftParen → s.ready = true

lemma Coherent.of_steps {t : Token} {tail : List Token} {p : Progress}
    (h : Steps ctx s t tail p) : p.next.Coherent := by
  cases h with
  | lone ht => simp [Coherent, ht]
  | triple _ _ _ hg => simp [Coherent, hg]
  | connective => simp [Coherent]
  | leftParen => simp [Coherent]
  | rightParen ht => simp [Coherent, ht]

lemma run_cons_of_steps {t : Token} {tail : List Token} {p : Progress}
    (h : Steps ctx s t tail p) :
    s.run ctx (t :: tail) = (p.next.run ctx p.rest).map (p.node :: ·) := by
  have hs := step_eq_ok_iff.2 h
  rw [run]
  split
  · next he => rw [hs] at he; cases he
  · next q hq =>
    rw [hs] at hq
    obtain rfl := Except.ok.inj hq
    rfl

/-- Each token is in the group of its kind, as it is when it was scanned. -/
def Grouped (ts : List Token) : Prop := ∀ t ∈ ts, t.group = t.kind.group

lemma Grouped.tail {t : Token} {ts : List Token} (h : Grouped (t :: ts)) : Grouped ts :=
  fun u hu => h u (List.mem_cons_of_mem t hu)

/-- A run that succeeds has read what may follow where the reader stands. -/
lemma exists_expects_of_run {ts : List Token} {ns : List Node} (ht : Grouped ts)
    (h : s.run ctx ts = .ok ns) :
    ∃ ps, Expects s.ready s.opened.length ts ps ∧ Yields ctx ps ns := by
  -- along the run: the way of each step is the first rule of `Expects`, and the flag and the open
  -- parentheses of the reader are the ones that the rule speaks of
  fun_induction run ctx s ts generalizing ns with
  | case1 s =>
    unfold finish at h
    split at h
    · simp [Except.map] at h
    · next ho =>
      split at h
      · simp [Except.map] at h
      · next hr =>
        obtain rfl := Except.ok.inj h
        have hready : s.ready = false := by simpa using hr
        rw [ho, hready]
        exact ⟨[], .done, .nil⟩
  | case2 => simp at h
  | case3 s t tail p hstep ih =>
    obtain ⟨ms, hrun, rfl⟩ := Except.map_eq_ok_iff.1 h
    cases step_eq_ok_iff.1 hstep with
    | lone hg hr _ hn =>
      obtain ⟨ps, hps, hy⟩ := ih ht.tail hrun
      rw [hr]
      exact ⟨_, .lone hg hps, .cons hn hy⟩
    | triple hl hr ho hg hn =>
      obtain ⟨ps, hps, hy⟩ := ih ht.tail.tail.tail hrun
      rw [hr]
      exact ⟨_, .triple hl ho hg hps, .cons hn hy⟩
    | connective hg hr _ =>
      obtain ⟨ps, hps, hy⟩ := ih ht.tail hrun
      rw [hr]
      refine ⟨_, .connective hg hps, .cons ?_ hy⟩
      rw [ofConnective_eq (ht t List.mem_cons_self) hg]
      rfl
    | leftParen hg hr =>
      obtain ⟨ps, hps, hy⟩ := ih ht.tail hrun
      rw [hr]
      exact ⟨_, .leftParen hg hps, .cons rfl hy⟩
    | rightParen hg hr ho _ =>
      obtain ⟨ps, hps, hy⟩ := ih ht.tail hrun
      rw [hr, ho]
      exact ⟨_, .rightParen hg hps, .cons rfl hy⟩

/-- What may follow where the reader stands is read, if the constructors accept the clauses. -/
lemma run_of_expects {due : Bool} {k : Nat} {ts : List Token} {ps : List Part}
    (h : Expects due k ts ps) :
    ∀ {s : Reader} {ns : List Node}, s.ready = due → s.opened.length = k → s.Coherent →
      Grouped ts → Yields ctx ps ns → s.run ctx ts = .ok ns := by
  induction h with
  | done =>
    intro s ns hr ho _ _ hy
    cases hy
    rw [run, finish, List.length_eq_zero_iff.1 ho]
    simp [hr, Except.map]
  | @rightParen k r ts ps hg _ ih =>
    intro s ns hr ho hs ht hy
    cases hy with
    | cons hn hy =>
      obtain rfl := Except.ok.inj hn
      obtain ⟨position, opened, hopened⟩ := List.exists_cons_of_length_eq_add_one ho
      -- the pair is not empty: behind an opening parenthesis a term would be due
      have hp : s.previous ≠ some .leftParen := fun hp => by simp [hs hp] at hr
      have hstep : Steps ctx s r ts _ := .rightParen hg hr hopened hp
      have hlength : opened.length = k := by simpa [hopened] using ho
      rw [run_cons_of_steps hstep, ih rfl hlength (.of_steps hstep) ht.tail hy]
      rfl
  | @connective k c ts ps hg h ih =>
    intro s ns hr ho hs ht hy
    cases hy with
    | cons hn hy =>
      obtain rfl := Except.ok.inj hn
      have hstep : Steps ctx s c ts _ := .connective hg hr h.ne_nil_of_due
      have hrun := ih (s := ⟨true, s.opened, some c.group⟩) rfl ho (.of_steps hstep) ht.tail hy
      rw [run_cons_of_steps hstep, hrun, ofConnective_eq (ht c List.mem_cons_self) hg]
      rfl
  | @leftParen k l ts ps hg _ ih =>
    intro s ns hr ho hs ht hy
    cases hy with
    | cons hn hy =>
      obtain rfl := Except.ok.inj hn
      have hstep : Steps ctx s l ts _ := .leftParen hg hr
      rw [run_cons_of_steps hstep, ih rfl (by simpa using ho) (.of_steps hstep) ht.tail hy]
      rfl
  | @lone k t ts ps hg h ih =>
    intro s ns hr ho hs ht hy
    cases hy with
    | cons hn hy =>
      have hstep : Steps ctx s t ts _ := .lone hg hr h.group_head hn
      have hrun := ih (s := ⟨false, s.opened, some t.group⟩) rfl ho (.of_steps hstep) ht.tail hy
      rw [run_cons_of_steps hstep, hrun]
      rfl
  | @triple k left operator right ts ps hl hop hg _ ih =>
    intro s ns hr ho hs ht hy
    cases hy with
    | cons hn hy =>
      have hstep : Steps ctx s left (operator :: right :: ts) _ := .triple hl hr hop hg hn
      have hrun := ih (s := ⟨false, s.opened, some right.group⟩) rfl ho (.of_steps hstep)
        ht.tail.tail.tail hy
      rw [run_cons_of_steps hstep, hrun]
      rfl

/-- A run succeeds exactly on what may follow where the reader stands. -/
theorem run_eq_ok_iff {ts : List Token} {ns : List Node} (hs : s.Coherent) (ht : Grouped ts) :
    s.run ctx ts = .ok ns ↔
      ∃ ps, Expects s.ready s.opened.length ts ps ∧ Yields ctx ps ns :=
  ⟨exists_expects_of_run ht, fun ⟨_, h, hy⟩ => run_of_expects h rfl rfl hs ht hy⟩

end Reader

/-- A filter is read exactly if it is an expression whose clauses are accepted, and the nodes are
those of its parts. -/
theorem read_eq_ok_iff {ctx : Context} {ts : List Token} {ns : List Node}
    (ht : Reader.Grouped ts) :
    read ctx ts = .ok ns ↔ ∃ ps, Derives .expr ts ps ∧ Yields ctx ps ns := by
  unfold read
  split
  · next hnil =>
    have hts : ts = [] := by simpa using hnil
    constructor
    · intro h
      simp at h
    · rintro ⟨ps, hd, -⟩
      exact absurd hts hd.ne_nil
  · rw [Reader.run_eq_ok_iff (by simp [Reader.Coherent, Reader.initial]) ht]
    simp only [Reader.initial, List.length_nil, expects_zero_iff]

end Filter
end ContentFilter
