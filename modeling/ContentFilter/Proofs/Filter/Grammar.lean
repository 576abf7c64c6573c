import ContentFilter.Filter.Node
import Mathlib.Tactic.Lemma
/-!
# The grammar of filters

A filter is an expression: terms joined by connectives, where a term is an expression in
parentheses, an operand alone, or an operand, an operator and an operand.  The grammar sees only
the groups of the tokens.  `Derives` relates a token sequence to its parts in the order of the
source, which are one for each clause, each connective and each parenthesis.

The grammar is nested, a reader that goes through the tokens once is not.  What bridges them is
`Expects`: what may still follow when a given number of parentheses is open and a term is due or
is not.  Its rules are those of a machine with a counter, and the tokens it allows at the start
are the expressions of the grammar (`expects_zero_iff`).  Since each of its rules is told by the
next two tokens, a token sequence has one list of parts at most (`Derives.parts_unique`).
-/

namespace ContentFilter
namespace Filter

/-- What a condition is made of. -/
inductive Clause where
  /-- An operand that stands alone. -/
  | lone (t : Token)
  /-- An operand, an operator and an operand. -/
  | triple (left operator right : Token)

/-- A part of a filter. -/
inductive Part where
  | clause (c : Clause)
  /-- A connective, by the kind of its token. -/
  | connective (kind : Kind)
  | leftParen
  | rightParen

/-- The two symbols of the grammar. -/
inductive Symbol where
  /-- Terms joined by connectives. -/
  | expr
  /-- An expression in parentheses, or a clause. -/
  | term

/-- The token sequences that a symbol of the grammar stands for, with their parts. -/
inductive Derives : Symbol → List Token → List Part → Prop
  /-- A term is an expression. -/
  | single {ts : List Token} {ps : List Part} :
      Derives .term ts ps → Derives .expr ts ps
  /-- A term, a connective and an expression are an expression. -/
  | join {ts us : List Token} {ps qs : List Part} {c : Token} :
      Derives .term ts ps → c.group = .connective → Derives .expr us qs →
      Derives .expr (ts ++ c :: us) (ps ++ .connective c.kind :: qs)
  /-- An expression in parentheses is a term. -/
  | parens {ts : List Token} {ps : List Part} {l r : Token} :
      l.group = .leftParen → Derives .expr ts ps → r.group = .rightParen →
      Derives .term (l :: (ts ++ [r])) (.leftParen :: (ps ++ [.rightParen]))
  /-- An operand is a term. -/
  | lone {t : Token} :
      t.group = .operand → Derives .term [t] [.clause (.lone t)]
  /-- An operand, an operator and an operand are a term. -/
  | triple {left operator right : Token} :
      left.group = .operand → operator.group = .operator → right.group = .operand →
      Derives .term [left, operator, right] [.clause (.triple left operator right)]

/-- No symbol stands for the empty sequence. -/
lemma Derives.ne_nil {s : Symbol} {ts : List Token} {ps : List Part} (h : Derives s ts ps) :
    ts ≠ [] := by
  induction h with
  | single _ ih => exact ih
  | join _ _ _ ih _ => simp [ih]
  | parens => simp
  | lone => simp
  | triple => simp

/-! ## What may follow -/

/-- `Expects due k ts ps`: behind a beginning of a filter with `k` open parentheses, where a term
is due or has just ended, the rest of the filter may be the tokens `ts` with the parts `ps`. -/
inductive Expects : Bool → Nat → List Token → List Part → Prop
  | done : Expects false 0 [] []
  | rightParen {k : Nat} {r : Token} {ts : List Token} {ps : List Part} :
      r.group = .rightParen → Expects false k ts ps →
      Expects false (k + 1) (r :: ts) (.rightParen :: ps)
  | connective {k : Nat} {c : Token} {ts : List Token} {ps : List Part} :
      c.group = .connective → Expects true k ts ps →
      Expects false k (c :: ts) (.connective c.kind :: ps)
  | leftParen {k : Nat} {l : Token} {ts : List Token} {ps : List Part} :
      l.group = .leftParen → Expects true (k + 1) ts ps →
      Expects true k (l :: ts) (.leftParen :: ps)
  | lone {k : Nat} {t : Token} {ts : List Token} {ps : List Part} :
      t.group = .operand → Expects false k ts ps →
      Expects true k (t :: ts) (.clause (.lone t) :: ps)
  | triple {k : Nat} {left operator right : Token} {ts : List Token} {ps : List Part} :
      left.group = .operand → operator.group = .operator → right.group = .operand →
      Expects false k ts ps →
      Expects true k (left :: operator :: right :: ts)
        (.clause (.triple left operator right) :: ps)

namespace Expects

variable {due : Bool} {k : Nat} {ts : List Token} {ps qs : List Part}

/-- Where a term is due, the filter does not end. -/
lemma ne_nil_of_due (h : Expects true k ts ps) : ts ≠ [] := by
  cases h <;> simp

/-- Behind a term stands a connective or a parenthesis that closes. -/
lemma group_head (h : Expects false k ts ps) :
    ts = [] ∨ ∃ t r, ts = t :: r ∧ (t.group = .connective ∨ t.group = .rightParen) := by
  cases h with
  | done => exact .inl rfl
  | rightParen hr _ => exact .inr ⟨_, _, rfl, .inr hr⟩
  | connective hc _ => exact .inr ⟨_, _, rfl, .inl hc⟩

/-- Behind a term stands no operator. -/
lemma group_head_ne_operator {t : Token} (h : Expects false k (t :: ts) ps) :
    t.group ≠ .operator := by
  obtain h | ⟨u, r, h, hu | hu⟩ := h.group_head
  · simp at h
  · obtain ⟨rfl, -⟩ := List.cons.inj h
    simp [hu]
  · obtain ⟨rfl, -⟩ := List.cons.inj h
    simp [hu]

/-- The tokens determine the parts. -/
lemma parts_unique (h : Expects due k ts ps) (h' : Expects due k ts qs) : ps = qs := by
  -- the group of the next token tells the rule, but for an operand: there it is the group of the
  -- token behind it, which is an operator or is not
  induction h generalizing qs with
  | done => cases h'; rfl
  | rightParen hr _ ih =>
    cases h' with
    | rightParen _ h' => rw [ih h']
    | connective hc _ => rw [hr] at hc; cases hc
  | connective hc _ ih =>
    cases h' with
    | rightParen hr _ => rw [hr] at hc; cases hc
    | connective _ h' => rw [ih h']
  | leftParen hl _ ih =>
    cases h' with
    | leftParen _ h' => rw [ih h']
    | lone ht _ => rw [hl] at ht; cases ht
    | triple ht _ _ _ => rw [hl] at ht; cases ht
  | lone ht h ih =>
    cases h' with
    | leftParen hl _ => rw [hl] at ht; cases ht
    | lone _ h' => rw [ih h']
    | triple _ ho _ _ => exact absurd ho h.group_head_ne_operator
  | triple hl ho _ _ ih =>
    cases h' with
    | leftParen hl' _ => rw [hl'] at hl; cases hl
    | lone _ h' => exact absurd ho h'.group_head_ne_operator
    | triple _ _ _ h' => rw [ih h']

end Expects

/-! ## The grammar allows no more -/

/-- A derivation can be put in front of anything that may follow a term. -/
lemma Derives.expects {s : Symbol} {ts : List Token} {ps : List Part} (h : Derives s ts ps) :
    ∀ {k : Nat} {us : List Token} {qs : List Part}, Expects false k us qs →
      Expects true k (ts ++ us) (ps ++ qs) := by
  induction h with
  | single _ ih => exact ih
  | join _ hc _ ih₁ ih₂ =>
    intro k us qs hu
    simpa using ih₁ (.connective hc (ih₂ hu))
  | parens hl _ hr ih =>
    intro k us qs hu
    simpa using Expects.leftParen hl (ih (.rightParen hr hu))
  | lone ht =>
    intro k us qs hu
    exact .lone ht hu
  | triple hl ho hr =>
    intro k us qs hu
    exact .triple hl ho hr hu

/-! ## The grammar allows no less -/

/-- What an expression goes on with behind its first term: nothing, or a connective and an
expression. -/
inductive Continues : List Token → List Part → Prop
  | none : Continues [] []
  | more {c : Token} {ts : List Token} {ps : List Part} :
      c.group = .connective → Derives .expr ts ps →
      Continues (c :: ts) (.connective c.kind :: ps)

lemma Derives.append_continues {ts us : List Token} {ps qs : List Part} (h : Derives .term ts ps)
    (hu : Continues us qs) : Derives .expr (ts ++ us) (ps ++ qs) := by
  cases hu with
  | none => simpa using Derives.single h
  | more hc hd => exact .join h hc hd

/-- What follows an expression inside `k` parentheses: each of them is closed in turn, and the
expression around it may go on. -/
inductive Closes : Nat → List Token → List Part → Prop
  | done : Closes 0 [] []
  | close {k : Nat} {r : Token} {ts us : List Token} {ps qs : List Part} :
      r.group = .rightParen → Continues ts ps → Closes k us qs →
      Closes (k + 1) (r :: (ts ++ us)) (.rightParen :: (ps ++ qs))

/-- What may follow where a term is due is an expression and what closes the parentheses around
it; where none is due, the expression has begun already. -/
lemma Expects.split {due : Bool} {k : Nat} {ts : List Token} {ps : List Part}
    (h : Expects due k ts ps) :
    ∃ us vs qs rs, ts = us ++ vs ∧ ps = qs ++ rs ∧ Closes k vs rs ∧
      if due then Derives .expr us qs else Continues us qs := by
  induction h with
  | done => exact ⟨[], [], [], [], rfl, rfl, .done, .none⟩
  | rightParen hr _ ih =>
    obtain ⟨us, vs, qs, rs, rfl, rfl, hcl, hu⟩ := ih
    exact ⟨[], _, [], _, rfl, rfl, .close hr hu hcl, .none⟩
  | connective hc _ ih =>
    obtain ⟨us, vs, qs, rs, rfl, rfl, hcl, hu⟩ := ih
    exact ⟨_ :: us, vs, _ :: qs, rs, rfl, rfl, hcl, .more hc hu⟩
  | @leftParen _ l _ _ hl _ ih =>
    -- the expression inside ends at the first of the parentheses that are closed
    obtain ⟨us, vs, qs, rs, rfl, rfl, hcl, hu⟩ := ih
    cases hcl with
    | @close _ r ws _ ss _ hr hw hcl =>
      exact ⟨l :: (us ++ [r]) ++ ws, _, Part.leftParen :: (qs ++ [Part.rightParen]) ++ ss, _,
        by simp, by simp, hcl, (Derives.parens hl hu hr).append_continues hw⟩
  | lone ht _ ih =>
    obtain ⟨us, vs, qs, rs, rfl, rfl, hcl, hu⟩ := ih
    exact ⟨_ :: us, vs, _ :: qs, rs, rfl, rfl, hcl, (Derives.lone ht).append_continues hu⟩
  | triple hl ho hr _ ih =>
    obtain ⟨us, vs, qs, rs, rfl, rfl, hcl, hu⟩ := ih
    exact ⟨_ :: _ :: _ :: us, vs, _ :: qs, rs, rfl, rfl, hcl,
      (Derives.triple hl ho hr).append_continues hu⟩

/-- What may stand at the start of a filter are the expressions of the grammar. -/
theorem expects_zero_iff {ts : List Token} {ps : List Part} :
    Expects true 0 ts ps ↔ Derives .expr ts ps := by
  constructor
  · intro h
    obtain ⟨us, vs, qs, rs, rfl, rfl, hcl, hu⟩ := h.split
    cases hcl
    simpa using hu
  · intro h
    simpa using h.expects .done

/-- The grammar is not ambiguous: an expression has one list of parts. -/
theorem Derives.parts_unique {ts : List Token} {ps qs : List Part} (h : Derives .expr ts ps)
    (h' : Derives .expr ts qs) : ps = qs :=
  (expects_zero_iff.2 h).parts_unique (expects_zero_iff.2 h')

end Filter
end ContentFilter
