import ContentFilter.Proofs.Filter.Acceptance
import ContentFilter.Proofs.Filter.Printing
/-!
# The text of a filter as a tree

The nodes of a filter are written side by side, and no tree is built.  Yet what is written is the
tree of the filter: its conditions, each written by itself, with ` AND ` and ` OR ` between them
and parentheses that hug what they enclose (`Tree.templateOf_nodes`).  The placeholders are
chosen from left to right, so that filling the whole is filling one condition after the other
(`Tree.fill_template`).
-/

namespace ContentFilter
namespace Filter

/-- The condition of a clause, if its constructor accepts the tokens. -/
def Clause.condition (ctx : Context) : Clause → Except Refusal Condition
  | lone t => Condition.ofLone t
  | triple left operator right => Condition.ofTriple ctx.builtins left operator right

lemma Clause.node_eq (ctx : Context) (c : Clause) :
    c.node ctx = (c.condition ctx).map (.condition ctx.dialect) := by
  cases c <;> rfl

namespace Tree

variable {l : Level}

/-! ## From clauses to nodes -/

/-- The nodes of a tree of conditions. -/
def nodes (d : Dialect) : {l : Level} → Tree Condition l → List Node
  | _, atom c => [.condition d c]
  | _, group e => .leftParen :: (e.nodes d ++ [.rightParen])
  | _, ofTerm t => t.nodes d
  | _, and t c => t.nodes d ++ .connective .and :: c.nodes d
  | _, ofConj c => c.nodes d
  | _, or c e => c.nodes d ++ .connective .or :: e.nodes d

lemma exists_yields_of_cons {ctx : Context} {p : Part} {ps : List Part} {n : Node}
    {ns : List Node} (hp : p.node ctx = .ok n) (h : Yields ctx (p :: ps) ns) :
    ∃ ms, ns = n :: ms ∧ Yields ctx ps ms := by
  cases h with
  | cons hn h =>
    obtain rfl := Except.ok.inj (hp.symm.trans hn)
    exact ⟨_, rfl, h⟩

/-- The nodes of a tree of clauses are those of a tree of conditions. -/
lemma exists_conditions {ctx : Context} (t : Tree Clause l) {ns : List Node}
    (h : Yields ctx t.parts ns) :
    ∃ c : Tree Condition l, t.map (Clause.condition ctx) = c.map .ok ∧
      c.nodes ctx.dialect = ns := by
  induction t generalizing ns with
  | atom a =>
    cases h with
    | cons hn h =>
      cases h
      simp only [Part.node, Clause.node_eq, Except.map_eq_ok_iff] at hn
      obtain ⟨c, hc, rfl⟩ := hn
      exact ⟨.atom c, by simp only [map, hc], rfl⟩
  | group e ih =>
    obtain ⟨ms, rfl, hms⟩ := exists_yields_of_cons rfl h
    obtain ⟨ms, ks, rfl, he, hr⟩ := List.exists_of_forall₂_append hms
    obtain ⟨rs, rfl, hrs⟩ := exists_yields_of_cons rfl hr
    cases hrs
    obtain ⟨c, hc, rfl⟩ := ih he
    exact ⟨.group c, by simp only [map, hc], rfl⟩
  | ofTerm t ih =>
    obtain ⟨c, hc, rfl⟩ := ih h
    exact ⟨.ofTerm c, by simp only [map, hc], rfl⟩
  | and t u iht ihu =>
    obtain ⟨ms, ks, rfl, ht, h⟩ := List.exists_of_forall₂_append h
    obtain ⟨ks, rfl, hu⟩ := exists_yields_of_cons rfl h
    obtain ⟨c, hc, rfl⟩ := iht ht
    obtain ⟨c', hc', rfl⟩ := ihu hu
    exact ⟨.and c c', by simp only [map, hc, hc'], rfl⟩
  | ofConj t ih =>
    obtain ⟨c, hc, rfl⟩ := ih h
    exact ⟨.ofConj c, by simp only [map, hc], rfl⟩
  | or t u iht ihu =>
    obtain ⟨ms, ks, rfl, ht, h⟩ := List.exists_of_forall₂_append h
    obtain ⟨ks, rfl, hu⟩ := exists_yields_of_cons rfl h
    obtain ⟨c, hc, rfl⟩ := iht ht
    obtain ⟨c', hc', rfl⟩ := ihu hu
    exact ⟨.or c c', by simp only [map, hc, hc'], rfl⟩

/-! ## From nodes to text -/

/-- A connective with the spaces around it. -/
def separator (connective : String) : Template := [.code " ", .code connective, .code " "]

/-- The template of a tree of conditions. -/
def template (d : Dialect) : {l : Level} → Tree Condition l → Template
  | _, atom c => c.template d
  | _, group e => .code "(" :: (e.template d ++ [.code ")"])
  | _, ofTerm t => t.template d
  | _, and t c => t.template d ++ separator "AND" ++ c.template d
  | _, ofConj c => c.template d
  | _, or c e => c.template d ++ separator "OR" ++ e.template d

/-- The nodes of a tree are written as its template, with a space in front unless they hug a
parenthesis. -/
lemma templateFrom_nodes (d : Dialect) (t : Tree Condition l) (hug : Bool) (r : List Node) :
    Node.templateFrom hug (t.nodes d ++ r) =
      (if hug then [] else [.code " "]) ++ t.template d ++ Node.templateFrom false r := by
  induction t generalizing hug r with
  | atom c => simp [nodes, template, Node.templateFrom, Node.template]
  | group e ih => simp [nodes, template, Node.templateFrom, Node.template, ih]
  | ofTerm t ih => exact ih hug r
  | and t c iht ihc =>
    simp [nodes, template, separator, Node.templateFrom, Node.template, iht, ihc]
  | ofConj c ih => exact ih hug r
  | or c e ihc ihe =>
    simp [nodes, template, separator, Node.templateFrom, Node.template, ihc, ihe]

theorem templateOf_nodes (d : Dialect) (t : Tree Condition l) :
    Node.templateOf (t.nodes d) = t.template d := by
  simpa [Node.templateOf, Node.templateFrom] using t.templateFrom_nodes d true []

/-- The conditions of a tree as texts, filled from left to right from one sink. -/
def render (d : Dialect) (t : Tree Condition l) (s : Sink) : Tree String l × Sink :=
  t.thread (fun c => (c.template d).fill) s

@[simp] lemma fill_separator_and (s : Sink) : (separator "AND").fill s = (" AND ", s) := rfl

@[simp] lemma fill_separator_or (s : Sink) : (separator "OR").fill s = (" OR ", s) := rfl

/-- Filling the template of a tree is printing its conditions, filled one after the other. -/
theorem fill_template (d : Dialect) (t : Tree Condition l) (s : Sink) :
    (t.template d).fill s = ((t.render d s).1.print, (t.render d s).2) := by
  -- for every sink, as the second subtree is filled from the sink that the first one leaves
  induction t generalizing s with
  | atom c => rfl
  | group e ih =>
    simp only [render] at ih
    simp [template, render, thread, print, Template.fill, Template.fill_append, ih,
      String.append_assoc]
  | ofTerm t ih => exact ih s
  | and t c iht ihc =>
    simp only [render] at iht ihc
    simp [template, render, thread, print, Template.fill_append, iht, ihc, String.append_assoc]
  | ofConj c ih => exact ih s
  | or c e ihc ihe =>
    simp only [render] at ihc ihe
    simp [template, render, thread, print, Template.fill_append, ihc, ihe, String.append_assoc]

end Tree
end Filter

end ContentFilter
