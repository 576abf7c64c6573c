import ContentFilter.Proofs.Filter.Compiled
import ContentFilter.Proofs.Filter.Parallel
/-!
# Acceptance does not depend on the dialect

The dialect decides how a condition is written, and nothing else.  A filter is refused for both
databases with the same error, or else it is accepted for both with nodes that differ in the stored
dialect only; what is written for the two databases then has the same connectives and parentheses
around the conditions (`Compiler.dialects_accept_alike`).
-/

namespace ContentFilter

open ContentFilter.Filter ContentFilter.Filter.Tree

/-! ## Nodes without their dialect -/

/-- A node with another dialect for its condition. -/
def Node.within (d : Dialect) : Node → Node
  | condition _ c => condition d c
  | n => n

lemma Node.Translates.eq_within {d d' : Dialect} {n m : Node} (h : Translates d d' n m) :
    m = n.within d' := by
  cases h <;> rfl

/-- Nodes that translate each other are equal up to the stored dialect. -/
lemma Node.map_within_eq {d d' : Dialect} {ns ms : List Node}
    (h : List.Forall₂ (Translates d d') ns ms) : ms = ns.map (within d') := by
  induction h with
  | nil => rfl
  | cons hn _ ih => rw [List.map_cons, ← hn.eq_within, ih]

lemma Filter.Tree.map_within_nodes {l : Level} (d d' : Dialect) (t : Tree Condition l) :
    (t.nodes d).map (Node.within d') = t.nodes d' := by
  induction t with
  | atom c => rfl
  | group t ih => simp [nodes, Node.within, ih]
  | ofTerm t ih => exact ih
  | and t u iht ihu => simp [nodes, Node.within, iht, ihu]
  | ofConj t ih => exact ih
  | or t u iht ihu => simp [nodes, Node.within, iht, ihu]

/-! ## Filters in both dialects -/

namespace Compiler

/-- A filter is refused for both databases with the same error, diagram included, or it is accepted
for both.  Then the nodes are equal when the stored dialects are overwritten with one and the same;
they are those of one tree of conditions, and for both databases and every sink what is written is
this tree with the conditions rendered, so with the same connectives and parentheses. -/
theorem dialects_accept_alike (b : Builtins) (stem : Stem) (query : String) :
    (∃ e, (⟨.postgres, b, stem⟩ : Compiler).parse query = .error e ∧
        (⟨.sqlite, b, stem⟩ : Compiler).parse query = .error e) ∨
      ∃ ns ms, (⟨.postgres, b, stem⟩ : Compiler).parse query = .ok ns ∧
        (⟨.sqlite, b, stem⟩ : Compiler).parse query = .ok ms ∧
        ns.map (Node.within .postgres) = ms.map (Node.within .postgres) ∧
        ∃ C : Tree Condition .disj, ns = C.nodes .postgres ∧ ms = C.nodes .sqlite ∧
          ∀ (d : Dialect) (sink : Sink),
            (⟨d, b, stem⟩ : Compiler).compileInto query sink =
              .ok ((C.render d sink).1.print, (C.render d sink).2) ∧
            (C.render d sink).1.shape = C.shape := by
  -- the tokens are read before the dialect is looked at
  have hrel := parse_rel_of_same_tokens ⟨.postgres, b, stem⟩ ⟨.sqlite, b, stem⟩ query rfl
    fun _ _ _ _ _ => rfl
  rcases hp : (⟨.postgres, b, stem⟩ : Compiler).parse query with e | ns
  · rw [hp] at hrel
    generalize hs : (⟨.sqlite, b, stem⟩ : Compiler).parse query = x at hrel
    cases hrel with
    | error he => exact .inl ⟨e, rfl, by rw [he]⟩
  · rw [hp] at hrel
    generalize hs : (⟨.sqlite, b, stem⟩ : Compiler).parse query = x at hrel
    cases hrel with
    | @ok _ ms h =>
      obtain ⟨_, C, -, -, hC⟩ := parse_eq_ok hp
      have hms : ms = C.nodes .sqlite := by
        rw [Node.map_within_eq h, hC, map_within_nodes]
      refine .inr ⟨ns, ms, rfl, rfl, ?_, C, hC, hms, fun d sink => ?_⟩
      · rw [hC, hms, map_within_nodes, map_within_nodes]
      · have hparse : (⟨d, b, stem⟩ : Compiler).parse query = .ok (C.nodes d) := by
          cases d with
          | postgres => rw [hp, hC]
          | sqlite => rw [hs, hms]
        refine ⟨?_, C.shape_thread _ sink⟩
        rw [compileInto_of_nodes hparse, fill_template]

end Compiler
end ContentFilter
