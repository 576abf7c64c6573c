import ContentFilter.Proofs.Token.Placement
import ContentFilter.Proofs.Token.Stretch
/-!
# Folding brackets is exact

The tokens of a source are folded exactly if their brackets match, are not nested, and enclose
scalars only, one at least (`Token.Bracketed`).  Nothing is lost then: with the brackets and the
elements put in the place of each list, the folded tokens are the tokens from before
(`Token.unfolded`).  No bracket is left, so that folding once more changes nothing.
-/

namespace ContentFilter
namespace Token

variable {b : Builtins} {source : String} {o : Option OpenList} {ts us run : List Token}

/-! ## The tokens that can be folded -/

/-- The brackets among the tokens match without nesting, and what each pair encloses is not empty
and made of strings, numbers and booleans. -/
inductive Bracketed : List Token → Prop
  | nil : Bracketed []
  | keep {t : Token} {ts : List Token} :
      t.kind ≠ .leftBracket → t.kind ≠ .rightBracket → Bracketed ts → Bracketed (t :: ts)
  | list {opening closing : Token} {items ts : List Token} :
      opening.kind = .leftBracket → closing.kind = .rightBracket → items ≠ [] →
      (∀ t ∈ items, t.kind ∈ [Kind.string, .number, .boolean]) → Bracketed ts →
      Bracketed (opening :: (items ++ closing :: ts))

lemma isScalar_iff {k : Kind} : k.isScalar = true ↔ k ∈ [Kind.string, .number, .boolean] := by
  cases k <;> simp [Kind.isScalar]

lemma not_bracket_iff {t : Token} (ht : t.group = t.kind.group) :
    t.group ≠ .leftBracket ∧ t.group ≠ .rightBracket ↔
      t.kind ≠ .leftBracket ∧ t.kind ≠ .rightBracket := by
  rw [ht]
  exact and_congr (not_congr (Kind.group_eq_iff (j := .leftBracket) (by simp)))
    (not_congr (Kind.group_eq_iff (j := .rightBracket) (by simp)))

/-- Scalars are taken into an open list one after the other. -/
lemma Folds.items {l : OpenList} {items : List Token}
    (hitems : ∀ t ∈ items, t.group = .operand ∧ t.kind.isScalar = true)
    (h : Folds source (some ⟨l.bracket, items.reverse ++ l.read⟩) ts us) :
    Folds source (some l) (items ++ ts) us := by
  induction items generalizing l with
  | nil => exact h
  | cons t items ih =>
    obtain ⟨⟨hgroup, hscalar⟩, hitems⟩ := List.forall_mem_cons.1 hitems
    have hpush : l.push t = .ok ⟨l.bracket, t :: l.read⟩ := by
      simp [OpenList.push, hgroup, hscalar]
    rw [List.reverse_cons, List.append_assoc, List.singleton_append] at h
    exact .item hpush (ih hitems h)

/-- Tokens whose brackets match can be folded. -/
lemma Bracketed.exists_folds (h : Bracketed ts) (hgroup : ∀ t ∈ ts, t.group = t.kind.group) :
    ∃ us, Folds source none ts us := by
  induction h with
  | nil => exact ⟨[], .done⟩
  | keep hleft hright _ ih =>
    obtain ⟨ht, htail⟩ := List.forall_mem_cons.1 hgroup
    obtain ⟨us, hus⟩ := ih htail
    obtain ⟨hl, hr⟩ := (not_bracket_iff ht).2 ⟨hleft, hright⟩
    exact ⟨_, .keep hl hr hus⟩
  | @list opening closing items ts hopening hclosing hne hitems _ ih =>
    simp only [List.mem_cons, List.mem_append, or_imp, forall_and, forall_eq] at hgroup
    obtain ⟨hl, hi, hr, htail⟩ := hgroup
    obtain ⟨us, hus⟩ := ih htail
    have hscalar : ∀ t ∈ items, t.group = .operand ∧ t.kind.isScalar = true := by
      intro t ht
      have hk := hitems t ht
      refine ⟨?_, isScalar_iff.2 hk⟩
      rw [hi t ht]
      simp only [List.mem_cons, List.not_mem_nil, or_false] at hk
      rcases hk with hk | hk | hk <;> rw [hk] <;> rfl
    have hclose : ∃ list, OpenList.close source ⟨opening, items.reverse ++ []⟩ closing =
        .ok list := by
      simp [OpenList.close, hne]
    obtain ⟨list, hlist⟩ := hclose
    have hfolds : Folds source (some ⟨opening, []⟩) (items ++ closing :: ts) (list :: us) :=
      Folds.items hscalar (.closes (by rw [hr, hclosing]; rfl) hlist hus)
    exact ⟨_, .opens (by rw [hl, hopening]; rfl) hfolds⟩

/-- No bracket is left when tokens are folded. -/
lemma Folds.not_bracket (h : Folds source o ts us) {u : Token} (hu : u ∈ us) :
    u.group ≠ .leftBracket ∧ u.group ≠ .rightBracket := by
  induction h with
  | done => cases hu
  | opens _ _ ih => exact ih hu
  | closes _ hclose _ ih =>
    rcases List.mem_cons.1 hu with rfl | hu
    · obtain rfl := OpenList.close_eq_ok hclose
      exact ⟨nofun, nofun⟩
    · exact ih hu
  | item _ _ ih => exact ih hu
  | keep hl hr _ ih =>
    rcases List.mem_cons.1 hu with rfl | hu
    · exact ⟨hl, hr⟩
    · exact ih hu

/-- Tokens without brackets are folded to themselves. -/
lemma folds_self (h : ∀ u ∈ us, u.group ≠ .leftBracket ∧ u.group ≠ .rightBracket) :
    Folds source none us us := by
  induction us with
  | nil => exact .done
  | cons u us ih =>
    obtain ⟨⟨hl, hr⟩, htail⟩ := List.forall_mem_cons.1 h
    exact .keep hl hr (ih htail)

/-- A list is the text from its opening bracket to its closing one. -/
lemma Folds.lexeme_eq (h : Folds source o ts us) (hts : ∀ t ∈ ts, t.kind ≠ .list) {u : Token}
    (hu : u ∈ us) (hk : u.kind = .list) : u.lexeme = slice source u.span := by
  induction h with
  | done => cases hu
  | opens _ _ ih => exact ih (fun t ht => hts t (List.mem_cons_of_mem _ ht)) hu
  | closes _ hclose _ ih =>
    rcases List.mem_cons.1 hu with rfl | hu
    · obtain rfl := OpenList.close_eq_ok hclose
      rfl
    · exact ih (fun t ht => hts t (List.mem_cons_of_mem _ ht)) hu
  | item _ _ ih => exact ih (fun t ht => hts t (List.mem_cons_of_mem _ ht)) hu
  | keep _ _ _ ih =>
    rcases List.mem_cons.1 hu with rfl | hu
    · exact absurd hk (hts _ List.mem_cons_self)
    · exact ih (fun t ht => hts t (List.mem_cons_of_mem _ ht)) hu

/-! ## Unfolding -/

/-- The tokens that a folded token stands for: a list stands for a bracket where it starts, its
elements, and a bracket in the place of its last character, and any other token for itself. -/
def unfolded (t : Token) : List Token :=
  if t.kind = .list then
    plain .leftBracket ⟨t.span.start, 1⟩ "[" ::
      (t.items ++ [plain .rightBracket ⟨t.span.stop - 1, 1⟩ "]"])
  else [t]

/-- The tokens that a folded token was made of are those that it stands for. -/
lemma Segment.unfolded_eq {t : Token} {cs : List Char} {n : Nat} (h : Segment run t)
    (hrun : run <:+: ts) (hts : ∀ u ∈ ts, IsLexeme b u) (htiles : Tiles n cs ts) :
    t.unfolded = run := by
  cases h with
  | plain =>
    have ht := hts t (hrun.subset (List.mem_singleton_self t))
    rw [unfolded, if_neg ht.kind_ne_list]
  | @list opening closing items lexeme hopening hclosing _ =>
    have hbracket : ∀ {t : Token} {k : Kind}, t ∈ ts → t.group = k.group →
        k ∈ [Kind.leftBracket, .rightBracket] →
        t = Token.plain k ⟨t.span.start, k.symbol.length⟩ k.symbol := by
      intro t k ht hg hk
      have hgroup : k.group ≠ .operand := by
        simp only [List.mem_cons, List.not_mem_nil, or_false] at hk
        rcases hk with rfl | rfl <;> decide
      rw [FromSource.group_eq (.inl (hts t ht)),
        Kind.group_eq_iff (List.mem_cons_of_mem _ (List.mem_cons_of_mem _ hk))] at hg
      subst hg
      exact (hts t ht).eq_symbol hgroup
    have hleft := hbracket (k := .leftBracket) (hrun.subset List.mem_cons_self) hopening (by simp)
    have hright := hbracket (k := .rightBracket) (hrun.subset (by simp)) hclosing (by simp)
    have hstop : (opening.span.upTo closing.span).stop - 1 = closing.span.start := by
      rw [(htiles.upTo_ends items hrun).2, hright]
      exact Nat.add_sub_cancel _ 1
    have hkind : (ofItems (opening.span.upTo closing.span) lexeme items).kind = .list := rfl
    rw [unfolded, if_pos hkind]
    simp only [ofItems, hstop]
    exact congrArg₂ (fun l r => l :: (items ++ [r])) hleft.symm hright.symm

/-- Folded tokens stand for all the tokens they were made of. -/
lemma flatMap_unfolded {runs : List (List Token)} {cs : List Char} {n : Nat}
    (h : List.Forall₂ Segment runs us) (hruns : ∀ run ∈ runs, run <:+: ts)
    (hts : ∀ u ∈ ts, IsLexeme b u) (htiles : Tiles n cs ts) :
    us.flatMap unfolded = runs.flatten := by
  induction h with
  | nil => rfl
  | cons hsegment _ ih =>
    obtain ⟨hrun, hruns⟩ := List.forall_mem_cons.1 hruns
    rw [List.flatMap_cons, hsegment.unfolded_eq hrun hts htiles, ih hruns, List.flatten_cons]

/-- The elements of a list stand between its brackets, one behind the other. -/
lemma Segment.items_inside {t : Token} {cs : List Char} {n : Nat} (h : Segment run t)
    (hrun : run <:+: ts) (hts : ∀ u ∈ ts, u.items = []) (htiles : Tiles n cs ts) :
    (∀ i ∈ t.items, t.span.start < i.span.start ∧ i.span.stop < t.span.stop) ∧
      t.items.Pairwise fun i j => i.span.stop ≤ j.span.start := by
  cases h with
  | plain =>
    rw [hts t (hrun.subset (List.mem_singleton_self t))]
    exact ⟨nofun, .nil⟩
  | @list opening closing items lexeme _ _ _ =>
    have hpairs := htiles.disjoint.sublist hrun.sublist
    obtain ⟨hbehind, hinner⟩ := List.pairwise_cons.1 hpairs
    obtain ⟨hitems, -, hbefore⟩ := List.pairwise_append.1 hinner
    have hopening := htiles.len_pos opening (hrun.subset List.mem_cons_self)
    have hclosing := htiles.len_pos closing (hrun.subset (by simp))
    have hstop := (htiles.upTo_ends items hrun).2
    refine ⟨fun i hi => ?_, hitems⟩
    have hfirst := hbehind i (List.mem_append_left _ hi)
    have hlast := hbefore i hi closing (List.mem_singleton_self closing)
    simp only [ofItems, hstop]
    simp only [Span.upTo, Span.stop] at hfirst hlast ⊢
    omega

/-- A folded token is in the group of its kind. -/
lemma Segment.group_eq {t : Token} (h : Segment run t) (hrun : ∀ u ∈ run, IsLexeme b u) :
    t.group = t.kind.group := by
  cases h with
  | plain => exact FromSource.group_eq (.inl (hrun t (List.mem_singleton_self t)))
  | list => rfl

/-- Tokens that can be folded have matching brackets. -/
lemma bracketed_of_segments {runs : List (List Token)} (h : List.Forall₂ Segment runs us)
    (hruns : ∀ t ∈ runs.flatten, IsLexeme b t)
    (hus : ∀ u ∈ us, u.group ≠ .leftBracket ∧ u.group ≠ .rightBracket)
    (hitems : ∀ u ∈ us, u.kind = .list → u.items ≠ []) : Bracketed runs.flatten := by
  induction h with
  | nil => exact .nil
  | @cons run u runs us hsegment _ ih =>
    simp only [List.flatten_cons, List.mem_append, or_imp, forall_and] at hruns
    obtain ⟨hrun, hruns⟩ := hruns
    obtain ⟨hu, hus⟩ := List.forall_mem_cons.1 hus
    obtain ⟨hne, hitems⟩ := List.forall_mem_cons.1 hitems
    have htail := ih hruns hus hitems
    have hgroup : ∀ t ∈ run, t.group = t.kind.group := fun t ht =>
      FromSource.group_eq (.inl (hrun t ht))
    cases hsegment with
    | plain =>
      obtain ⟨hl, hr⟩ := (not_bracket_iff (hgroup u (List.mem_singleton_self u))).1 hu
      exact .keep hl hr htail
    | @list opening closing items lexeme hopening hclosing hscalars =>
      rw [hgroup opening List.mem_cons_self] at hopening
      rw [hgroup closing (by simp)] at hclosing
      rw [List.flatten_cons, List.cons_append, List.append_assoc, List.singleton_append]
      exact .list ((Kind.group_eq_iff (j := .leftBracket) (by simp)).1 hopening)
        ((Kind.group_eq_iff (j := .rightBracket) (by simp)).1 hclosing) (hne rfl)
        (fun t ht => isScalar_iff.1 (hscalars t ht).2) htail

/-! ## Folding the tokens of a source -/

/-- What the tokens of a source are folded to. -/
structure Folded (source : String) (ts us : List Token) : Prop where
  /-- No bracket is left. -/
  no_bracket : ∀ u ∈ us, u.kind ≠ .leftBracket ∧ u.kind ≠ .rightBracket
  /-- With each list unfolded, the tokens are those from before. -/
  unfolded : us.flatMap Token.unfolded = ts
  /-- The text of a list is that of the source in its stretch, and the stretch lies in the
  source. -/
  lexeme : ∀ u ∈ us, u.kind = .list →
    u.lexeme = slice source u.span ∧ u.span.stop ≤ source.toList.length
  /-- The elements of a list lie inside of its stretch. -/
  inside : ∀ u ∈ us, ∀ i ∈ u.items, u.span.start < i.span.start ∧ i.span.stop < u.span.stop
  /-- The elements of a list are in the order of the source. -/
  ordered : ∀ u ∈ us, u.items.Pairwise fun i j => i.span.stop ≤ j.span.start
  /-- Folding once more changes nothing. -/
  again : foldLists source us = .ok us

lemma foldLists_eq_ok_iff : foldLists source ts = .ok us ↔ Folds source none ts us := by
  rw [foldLists, Except.mapError_eq_ok_iff, foldBrackets, foldFrom_eq_ok_iff]

/-- What is made of the tokens of a source by the rules of folding. -/
lemma Folds.folded (h : ofSource b source = .ok ts) (hfolds : Folds source none ts us) :
    Bracketed ts ∧ Folded source ts us := by
  have hts : ∀ t ∈ ts, IsLexeme b t := fun t ht => Scanner.exists_lexeme_of_mem_tokens h ht
  have htiled := ofSource_eq_ok_iff_tiled.1 h
  have htiles := htiled.tiles
  obtain ⟨runs, hflat, hruns⟩ := hfolds.exists_segments nofun
  obtain rfl : runs.flatten = ts := hflat
  have hsegment : ∀ u ∈ us, ∃ run, run <:+: runs.flatten ∧ Segment run u := fun u hu =>
    exists_run_of_mem hruns hu
  have hkind : ∀ u ∈ us, u.kind ≠ .leftBracket ∧ u.kind ≠ .rightBracket := by
    intro u hu
    obtain ⟨run, hrun, hu'⟩ := hsegment u hu
    exact (not_bracket_iff (hu'.group_eq fun t ht => hts t (hrun.subset ht))).1
      (hfolds.not_bracket hu)
  have hitems : ∀ u ∈ us, u.kind = .list → u.items ≠ [] := fun u hu hk =>
    (hfolds.items_ne_nil hu).resolve_left fun hmem => (hts u hmem).kind_ne_list hk
  refine ⟨bracketed_of_segments hruns hts (fun u hu => hfolds.not_bracket hu) hitems,
    hkind, ?_, fun u hu hk => ⟨?_, ?_⟩, fun u hu => ?_, fun u hu => ?_, ?_⟩
  · exact flatMap_unfolded hruns (fun run hrun => List.infix_of_mem_flatten hrun) hts htiles
  · exact hfolds.lexeme_eq (fun t ht => (hts t ht).kind_ne_list) hu hk
  · obtain ⟨run, hrun, hu'⟩ := hsegment u hu
    obtain ⟨-, -, t, ht, hstop⟩ := hu'.stretch.ends hrun htiles
    simpa [← hstop] using (htiles.inside t ht).2
  · obtain ⟨run, hrun, hu'⟩ := hsegment u hu
    exact (hu'.items_inside hrun htiled.items_eq_nil htiles).1
  · obtain ⟨run, hrun, hu'⟩ := hsegment u hu
    exact (hu'.items_inside hrun htiled.items_eq_nil htiles).2
  · exact foldLists_eq_ok_iff.2 (folds_self fun u hu => hfolds.not_bracket hu)

/-- The tokens of a source can be folded exactly if their brackets match without nesting and enclose
scalars, one at least.  The folded tokens hold no bracket, are the tokens of the source again when
the lists are unfolded, and are not changed by folding; a list has the text of its stretch, with its
elements inside and in order. -/
theorem foldLists_exact (h : ofSource b source = .ok ts) :
    ((∃ us, foldLists source ts = .ok us) ↔ Bracketed ts) ∧
      ∀ us, foldLists source ts = .ok us → Folded source ts us := by
  refine ⟨⟨fun ⟨us, hus⟩ => ?_, fun hbracketed => ?_⟩, fun us hus => ?_⟩
  · exact (foldLists_eq_ok_iff.1 hus).folded h |>.1
  · obtain ⟨us, hfolds⟩ := hbracketed.exists_folds fun t ht =>
      FromSource.group_eq (.inl (Scanner.exists_lexeme_of_mem_tokens h ht))
    exact ⟨us, foldLists_eq_ok_iff.2 hfolds⟩
  · exact (foldLists_eq_ok_iff.1 hus).folded h |>.2

/-- Two lists, one of them with stray commas, among tokens that stay as they are. -/
theorem foldLists_exact_of_two_lists :
    let source := "a @ [,'x' -1 true,] & (b !@ ['[y]'])"
    ∃ ts us, ofSource .empty source = .ok ts ∧ foldLists source ts = .ok us ∧
      us.map Token.kind = [.field, .operator (.member false), .list, .and, .leftParen, .field,
        .operator (.member true), .list, .rightParen] ∧
      Bracketed ts ∧ Folded source ts us := by
  intro source
  obtain ⟨ts, hts⟩ : ∃ ts, ofSource .empty source = .ok ts :=
    Except.exists_of_isOk (by decide +kernel)
  have hkinds : (ofSource .empty source).toOption.bind (fun ts =>
      (foldLists source ts).toOption.map (·.map Token.kind)) =
        some [.field, .operator (.member false), .list, .and, .leftParen, .field,
          .operator (.member true), .list, .rightParen] := by decide +kernel
  rw [hts] at hkinds
  cases hus : foldLists source ts with
  | error e => simp [hus, Except.toOption] at hkinds
  | ok us =>
    obtain ⟨hiff, hfolded⟩ := foldLists_exact hts
    refine ⟨ts, us, hts, hus, ?_, hiff.1 ⟨us, hus⟩, hfolded us hus⟩
    simpa [hus, Except.toOption] using hkinds

end Token
end ContentFilter
