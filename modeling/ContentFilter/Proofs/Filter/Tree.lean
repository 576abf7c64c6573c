import ContentFilter.Proofs.Filter.Reading
/-!
# Filters as trees

The connectives of a filter bind with different strength, `&` before `|`, and the terms in
parentheses stay together.  `Tree` is the type of the trees of this grammar, level by level: a
disjunction of conjunctions of terms, where a term is an atom or a disjunction in parentheses.

A tree is written as a list of parts (`Tree.parts`).  Every expression of the flat grammar of
`Derives` is written by a tree (`exists_tree_of_derives`), and by one only
(`Tree.parts_injective`).
-/

namespace ContentFilter
namespace Filter

/-- The levels of the grammar, the weakest connective first. -/
inductive Level where
  /-- Conjunctions joined by `|`. -/
  | disj
  /-- Terms joined by `&`. -/
  | conj
  /-- An atom, or a disjunction in parentheses. -/
  | term
deriving DecidableEq, Repr

/-- The trees of a level, with atoms of a given type. -/
inductive Tree (α : Type) : Level → Type
  | atom (a : α) : Tree α .term
  | group (d : Tree α .disj) : Tree α .term
  /-- A term is a conjunction. -/
  | ofTerm (t : Tree α .term) : Tree α .conj
  /-- A term in front of a conjunction. -/
  | and (t : Tree α .term) (c : Tree α .conj) : Tree α .conj
  /-- A conjunction is a disjunction. -/
  | ofConj (c : Tree α .conj) : Tree α .disj
  /-- A conjunction in front of a disjunction. -/
  | or (c : Tree α .conj) (d : Tree α .disj) : Tree α .disj

namespace Tree

variable {α β σ ε : Type} {l : Level}

/-- The tree with its atoms replaced. -/
def map (f : α → β) : {l : Level} → Tree α l → Tree β l
  | _, atom a => atom (f a)
  | _, group d => group (d.map f)
  | _, ofTerm t => ofTerm (t.map f)
  | _, and t c => and (t.map f) (c.map f)
  | _, ofConj c => ofConj (c.map f)
  | _, or c d => or (c.map f) (d.map f)

/-- The tree with its atoms replaced from left to right, while a state is handed on. -/
def thread (f : α → σ → β × σ) : {l : Level} → Tree α l → σ → Tree β l × σ
  | _, atom a, s => (atom (f a s).1, (f a s).2)
  | _, group d, s => (group (d.thread f s).1, (d.thread f s).2)
  | _, ofTerm t, s => (ofTerm (t.thread f s).1, (t.thread f s).2)
  | _, and t c, s =>
    (and (t.thread f s).1 (c.thread f (t.thread f s).2).1, (c.thread f (t.thread f s).2).2)
  | _, ofConj c, s => (ofConj (c.thread f s).1, (c.thread f s).2)
  | _, or c d, s =>
    (or (c.thread f s).1 (d.thread f (c.thread f s).2).1, (d.thread f (c.thread f s).2).2)

/-- The atoms from left to right. -/
def atoms : {l : Level} → Tree α l → List α
  | _, atom a => [a]
  | _, group d => d.atoms
  | _, ofTerm t => t.atoms
  | _, and t c => t.atoms ++ c.atoms
  | _, ofConj c => c.atoms
  | _, or c d => c.atoms ++ d.atoms

@[simp] lemma atoms_map (f : α → β) (t : Tree α l) : (t.map f).atoms = t.atoms.map f := by
  induction t with
  | atom a => rfl
  | group d ih => exact ih
  | ofTerm t ih => exact ih
  | and t c iht ihc => simp [map, atoms, iht, ihc]
  | ofConj c ih => exact ih
  | or c d ihc ihd => simp [map, atoms, ihc, ihd]

lemma map_map {γ : Type} (f : α → β) (g : β → γ) (t : Tree α l) :
    (t.map f).map g = t.map fun a => g (f a) := by
  induction t with
  | atom a => rfl
  | group d ih => exact congrArg group ih
  | ofTerm t ih => exact congrArg ofTerm ih
  | and t c iht ihc => exact congrArg₂ and iht ihc
  | ofConj c ih => exact congrArg ofConj ih
  | or c d ihc ihd => exact congrArg₂ or ihc ihd

/-- Each atom that a tree is threaded to comes from an atom, at some state. -/
lemma exists_of_mem_atoms_thread {f : α → σ → β × σ} {t : Tree α l} {s : σ} {b : β}
    (h : b ∈ (t.thread f s).1.atoms) : ∃ a ∈ t.atoms, ∃ s', (f a s').1 = b := by
  induction t generalizing s with
  | atom a =>
    obtain rfl := by simpa [thread, atoms] using h
    exact ⟨a, by simp [atoms], s, rfl⟩
  | group d ih => exact ih h
  | ofTerm t ih => exact ih h
  | and t c iht ihc =>
    rcases List.mem_append.1 h with h | h
    · obtain ⟨a, ha, hb⟩ := iht h
      exact ⟨a, List.mem_append_left _ ha, hb⟩
    · obtain ⟨a, ha, hb⟩ := ihc h
      exact ⟨a, List.mem_append_right _ ha, hb⟩
  | ofConj c ih => exact ih h
  | or c d ihc ihd =>
    rcases List.mem_append.1 h with h | h
    · obtain ⟨a, ha, hb⟩ := ihc h
      exact ⟨a, List.mem_append_left _ ha, hb⟩
    · obtain ⟨a, ha, hb⟩ := ihd h
      exact ⟨a, List.mem_append_right _ ha, hb⟩

/-- The tree without its atoms. -/
def shape (t : Tree α l) : Tree Unit l := t.map fun _ => ()

lemma shape_map (f : α → β) (t : Tree α l) : (t.map f).shape = t.shape := map_map f _ t

lemma shape_thread (f : α → σ → β × σ) (t : Tree α l) (s : σ) :
    (t.thread f s).1.shape = t.shape := by
  induction t generalizing s with
  | atom a => rfl
  | group d ih => exact congrArg group (ih s)
  | ofTerm t ih => exact congrArg ofTerm (ih s)
  | and t c iht ihc => exact congrArg₂ and (iht s) (ihc _)
  | ofConj c ih => exact congrArg ofConj (ih s)
  | or c d ihc ihd => exact congrArg₂ or (ihc s) (ihd _)

/-- The parts that a tree of clauses is written with. -/
def parts : {l : Level} → Tree Clause l → List Part
  | _, atom a => [.clause a]
  | _, group d => .leftParen :: (d.parts ++ [.rightParen])
  | _, ofTerm t => t.parts
  | _, and t c => t.parts ++ .connective .and :: c.parts
  | _, ofConj c => c.parts
  | _, or c d => c.parts ++ .connective .or :: d.parts

/-! ## A tree is determined by its parts -/

/-- A tree of the level may go on with this part. -/
def Joins : Level → Part → Prop
  | .disj, p => p = .connective .and ∨ p = .connective .or
  | .conj, p => p = .connective .and
  | .term, _ => False

/-- No tree of the level goes on with these parts. -/
def Stops (l : Level) (ps : List Part) : Prop := ∀ p r, ps = p :: r → ¬Joins l p

lemma stops_nil (l : Level) : Stops l [] := by
  intro p r h
  simp at h

lemma stops_cons {l : Level} {p : Part} (h : ¬Joins l p) (ps : List Part) : Stops l (p :: ps) := by
  rintro q r hq
  obtain ⟨rfl, -⟩ := List.cons.inj hq
  exact h

lemma stops_term (ps : List Part) : Stops .term ps := fun _ _ _ h => h

lemma Stops.conj {ps : List Part} (h : Stops .disj ps) : Stops .conj ps :=
  fun p r hp hj => h p r hp (.inl hj)

lemma not_stops {l : Level} {p : Part} {ps : List Part} (h : Joins l p) : ¬Stops l (p :: ps) :=
  fun hs => hs p ps rfl h

lemma stops_rightParen (ps : List Part) : Stops .disj (.rightParen :: ps) :=
  stops_cons (by simp [Joins]) ps

lemma stops_or (ps : List Part) : Stops .conj (.connective .or :: ps) :=
  stops_cons (by simp [Joins]) ps

/-- A tree can be told from its parts and what follows, if nothing in it goes on there. -/
lemma parts_append_injective (t u : Tree Clause l) :
    ∀ {ps qs : List Part}, Stops l ps → Stops l qs → t.parts ++ ps = u.parts ++ qs →
      t = u ∧ ps = qs := by
  -- two chains have the same first element, and whether they go on behind it is told by the next
  -- part, as no tree of a lower level goes on with a connective of this one
  induction t with
  | atom a =>
    intro ps qs _ _ h
    cases u with
    | atom b =>
      simp only [parts, List.singleton_append, List.cons.injEq, Part.clause.injEq] at h
      exact ⟨by rw [h.1], h.2⟩
    | group e => simp [parts] at h
  | group d ih =>
    intro ps qs _ _ h
    cases u with
    | atom b => simp [parts] at h
    | group e =>
      have hinner : d.parts ++ .rightParen :: ps = e.parts ++ .rightParen :: qs := by
        simpa [parts] using h
      obtain ⟨rfl, htail⟩ := ih e (stops_rightParen ps) (stops_rightParen qs) hinner
      exact ⟨rfl, (List.cons.inj htail).2⟩
  | ofTerm t ih =>
    intro ps qs hps hqs h
    cases u with
    | ofTerm t' =>
      obtain ⟨rfl, htail⟩ := ih t' (stops_term ps) (stops_term qs) h
      exact ⟨rfl, htail⟩
    | and t' c' =>
      simp only [parts, List.append_assoc, List.cons_append] at h
      obtain ⟨-, rfl⟩ := ih t' (stops_term ps) (stops_term _) h
      exact absurd hps (not_stops rfl)
  | and t c iht ihc =>
    intro ps qs hps hqs h
    cases u with
    | ofTerm t' =>
      simp only [parts, List.append_assoc, List.cons_append] at h
      obtain ⟨-, rfl⟩ := iht t' (stops_term _) (stops_term qs) h
      exact absurd hqs (not_stops rfl)
    | and t' c' =>
      simp only [parts, List.append_assoc, List.cons_append] at h
      obtain ⟨rfl, htail⟩ := iht t' (stops_term _) (stops_term _) h
      obtain ⟨rfl, hrest⟩ := ihc c' hps hqs (List.cons.inj htail).2
      exact ⟨rfl, hrest⟩
  | ofConj c ih =>
    intro ps qs hps hqs h
    cases u with
    | ofConj c' =>
      obtain ⟨rfl, htail⟩ := ih c' hps.conj hqs.conj h
      exact ⟨rfl, htail⟩
    | or c' d' =>
      simp only [parts, List.append_assoc, List.cons_append] at h
      obtain ⟨-, rfl⟩ := ih c' hps.conj (stops_or _) h
      exact absurd hps (not_stops (.inr rfl))
  | or c d ihc ihd =>
    intro ps qs hps hqs h
    cases u with
    | ofConj c' =>
      simp only [parts, List.append_assoc, List.cons_append] at h
      obtain ⟨-, rfl⟩ := ihc c' (stops_or _) hqs.conj h
      exact absurd hqs (not_stops (.inr rfl))
    | or c' d' =>
      simp only [parts, List.append_assoc, List.cons_append] at h
      obtain ⟨rfl, htail⟩ := ihc c' (stops_or _) (stops_or _) h
      obtain ⟨rfl, hrest⟩ := ihd d' hps hqs (List.cons.inj htail).2
      exact ⟨rfl, hrest⟩

/-- A list of parts is written by one tree at most. -/
theorem parts_injective {t u : Tree Clause l} (h : t.parts = u.parts) : t = u :=
  (t.parts_append_injective u (stops_nil l) (stops_nil l) (by simpa using h)).1

/-! ## Every expression is written by a tree -/

/-- A disjunction with one more term in front of its first conjunction. -/
def prepend (t : Tree α .term) : Tree α .disj → Tree α .disj
  | ofConj c => ofConj (and t c)
  | or c d => or (and t c) d

@[simp] lemma parts_prepend (t : Tree Clause .term) (d : Tree Clause .disj) :
    (prepend t d).parts = t.parts ++ .connective .and :: d.parts := by
  cases d with
  | ofConj c => rfl
  | or c d => simp [prepend, parts]

end Tree

/-- A connective is one of the two. -/
lemma kind_of_connective {t : Token} (ht : t.group = t.kind.group) (hg : t.group = .connective) :
    t.kind = .and ∨ t.kind = .or := by
  rw [hg] at ht
  cases hk : t.kind with
  | and => exact .inl rfl
  | or => exact .inr rfl
  | _ =>
    rw [hk] at ht
    cases ht

/-- A derivation of the flat grammar is written by a tree. -/
lemma exists_tree_of_derives {s : Symbol} {ts : List Token} {ps : List Part}
    (h : Derives s ts ps) (hts : Reader.Grouped ts) :
    (∃ d : Tree Clause .disj, d.parts = ps) ∧
      (s = .term → ∃ t : Tree Clause .term, t.parts = ps) := by
  -- a term is needed as one where a connective follows it, and as a disjunction elsewhere
  induction h with
  | single _ ih => exact ⟨(ih hts).1, by simp⟩
  | @join ts us ps qs c _ hc _ ih₁ ih₂ =>
    obtain ⟨t, ht⟩ := (ih₁ fun u hu => hts u (List.mem_append_left _ hu)).2 rfl
    obtain ⟨d, hd⟩ :=
      (ih₂ fun u hu => hts u (List.mem_append_right _ (List.mem_cons_of_mem c hu))).1
    refine ⟨?_, by simp⟩
    -- `&` takes the term into the first conjunction of the rest, `|` begins one of its own
    rcases kind_of_connective (hts c (by simp)) hc with hk | hk
    · exact ⟨t.prepend d, by rw [Tree.parts_prepend, ht, hd, hk]⟩
    · exact ⟨.or (.ofTerm t) d, by simp only [Tree.parts, ht, hd, hk]⟩
  | @parens ts ps l r _ _ _ ih =>
    obtain ⟨d, hd⟩ := (ih fun u hu => hts u (by simp [hu])).1
    have ht : (Tree.group d).parts = .leftParen :: (ps ++ [.rightParen]) := by
      simp only [Tree.parts, hd]
    exact ⟨⟨.ofConj (.ofTerm (.group d)), ht⟩, fun _ => ⟨.group d, ht⟩⟩
  | @lone t _ =>
    exact ⟨⟨.ofConj (.ofTerm (.atom (.lone t))), rfl⟩, fun _ => ⟨.atom (.lone t), rfl⟩⟩
  | @triple left operator right _ _ _ =>
    exact ⟨⟨.ofConj (.ofTerm (.atom (.triple left operator right))), rfl⟩,
      fun _ => ⟨.atom (.triple left operator right), rfl⟩⟩

end Filter
end ContentFilter
