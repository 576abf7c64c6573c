import ContentFilter.Compiler
import ContentFilter.Proofs.Condition.Parallel
/-!
# Two readings of a filter in step

Two compilers read two token sequences whose tokens are, one by one, counterparts of each other.
The readers then go in step: what they know of the tokens behind them stays alike
(`Reader.InStep`), each step reads the same part of a filter on both sides or refuses both for the
same cause (`Reader.step_rel`), and so does the whole run (`Reader.run_rel`).  The nodes are
translations of each other: they differ in the stored dialect at most (`Node.Translates`).

For compilers this means that tokens that are counterparts give filters that are accepted alike
(`Compiler.parse_rel`).
-/

namespace ContentFilter

open Except (Rel)
open Token (Counterpart)

/-! ## Nodes -/

namespace Node

/-- The nodes are the same part of a filter, each in a dialect of its own. -/
inductive Translates (d d' : Dialect) : Node → Node → Prop
  | condition (c : Condition) : Translates d d' (.condition d c) (.condition d' c)
  | connective (k : Kind) : Translates d d' (.connective k) (.connective k)
  | leftParen : Translates d d' .leftParen .leftParen
  | rightParen : Translates d d' .rightParen .rightParen

variable {placed : Prop} {ctx ctx' : Context} {d d' : Dialect}

/-- Within one dialect only equal nodes translate each other. -/
lemma Translates.eq_of_forall₂ {ns ms : List Node} (h : List.Forall₂ (Translates d d) ns ms) :
    ns = ms := by
  induction h with
  | nil => rfl
  | cons hn _ ih => cases hn <;> rw [ih]

lemma ofConnective_translates {t t' : Token}
    (h : Counterpart placed ctx.builtins ctx'.builtins t t') :
    Translates d d' (ofConnective t) (ofConnective t') := by
  unfold ofConnective
  rw [← h.kind_eq]
  split
  · exact .leftParen
  · exact .rightParen
  · exact .connective _

lemma ofLone_rel {t t' : Token} (h : Counterpart placed ctx.builtins ctx'.builtins t t') :
    Rel (Refusal.Agrees placed) (Translates ctx.dialect ctx'.dialect) (ofLone ctx t)
      (ofLone ctx' t') := by
  refine (Condition.ofLone_rel h).map ?_
  rintro c _ rfl
  exact .condition c

lemma ofTriple_rel {left left' operator operator' right right' : Token}
    (hl : Counterpart placed ctx.builtins ctx'.builtins left left')
    (ho : Counterpart placed ctx.builtins ctx'.builtins operator operator')
    (hr : Counterpart placed ctx.builtins ctx'.builtins right right') :
    Rel (Refusal.Agrees placed) (Translates ctx.dialect ctx'.dialect)
      (ofTriple ctx left operator right) (ofTriple ctx' left' operator' right') := by
  refine (Condition.ofTriple_rel hl ho hr).map ?_
  rintro c _ rfl
  exact .condition c

end Node

/-! ## Faults -/

/-- The refusals have the same cause, and are the same if places agree. -/
structure ParseError.Agrees (placed : Prop) (e e' : ParseError) : Prop where
  cause_eq : e.cause = e'.cause
  eq : placed → e = e'

/-- A fault at places that agree is the same refusal, if the sources agree as well. -/
lemma Flagged.Agrees.inSource {placed : Prop} {source source' : String} {e e' : Flagged Cause}
    (h : e.Agrees placed e') (hs : placed → source = source') :
    (ParseError.inSource source e).Agrees placed (ParseError.inSource source' e') := by
  refine ⟨h.cause_eq, fun hp => ?_⟩
  rw [ParseError.inSource, ParseError.inSource, h.cause_eq, h.mark_eq hp, hs hp]

namespace Filter
namespace Reader

variable {placed : Prop} {ctx ctx' : Context} {s s' : Reader} {t t' : Token}
  {tail tail' : List Token}

/-! ## Steps -/

/-- The readers know the same about the tokens behind them, the places of the open parentheses
included if places agree. -/
structure InStep (placed : Prop) (s s' : Reader) : Prop where
  ready_eq : s.ready = s'.ready
  previous_eq : s.previous = s'.previous
  opened : List.Forall₂ (fun p p' => placed → p = p') s.opened s'.opened

/-- The steps have read the same part and go on in step. -/
structure Progress.InStep (placed : Prop) (ctx ctx' : Context) (p p' : Progress) : Prop where
  node : Node.Translates ctx.dialect ctx'.dialect p.node p'.node
  next : p.next.InStep placed p'.next
  rest : List.Forall₂ (Counterpart placed ctx.builtins ctx'.builtins) p.rest p'.rest

lemma blame_agrees (h : Counterpart placed ctx.builtins ctx'.builtins t t') (cause : ShapeCause) :
    (blame t cause).Agrees placed (blame t' cause) :=
  ⟨rfl, fun hp => congrArg Mark.span (h.span_eq hp)⟩

/-- What is read into a node on both sides, or refused on both. -/
lemma accept_rel {x x' : Except Refusal Node}
    (h : Rel (Refusal.Agrees placed) (Node.Translates ctx.dialect ctx'.dialect) x x') :
    Rel (Flagged.Agrees placed) (Node.Translates ctx.dialect ctx'.dialect) (accept x)
      (accept x') :=
  h.mapError fun _ _ he =>
    ⟨congrArg Cause.condition he.cause_eq, fun hp => congrArg Mark.span (he.span_eq hp)⟩

lemma readCondition_rel (hs : s.InStep placed s')
    (hl : Counterpart placed ctx.builtins ctx'.builtins t t')
    (h : List.Forall₂ (Counterpart placed ctx.builtins ctx'.builtins) tail tail') :
    Rel (Flagged.Agrees placed) (Progress.InStep placed ctx ctx') (s.readCondition ctx t tail)
      (s'.readCondition ctx' t' tail') := by
  have hlone : Rel (Flagged.Agrees placed) (Progress.InStep placed ctx ctx')
      (do let node ← accept (Node.ofLone ctx t)
          return ⟨node, ⟨false, s.opened, some t.group⟩, tail⟩)
      (do let node ← accept (Node.ofLone ctx' t')
          return ⟨node, ⟨false, s'.opened, some t'.group⟩, tail'⟩) :=
    (accept_rel (Node.ofLone_rel hl)).bind fun _ _ hn =>
      .ok ⟨hn, ⟨rfl, congrArg some hl.group_eq, hs.opened⟩, h⟩
  unfold readCondition
  rw [← hs.ready_eq]
  split_ifs
  · exact .error (blame_agrees hl _)
  · cases h with
    | nil => exact hlone
    | @cons u u' rest rest' hu hrest =>
      dsimp only
      rw [← hu.group_eq]
      cases u.group with
      | connective | rightParen => exact hlone
      | operator =>
        cases hrest with
        | nil => exact .error (blame_agrees hu _)
        | @cons v v' rest rest' hv hrest =>
          dsimp only
          rw [← hv.group_eq]
          cases v.group with
          | operand =>
            exact (accept_rel (Node.ofTriple_rel hl hu hv)).bind fun _ _ hn =>
              .ok ⟨hn, ⟨rfl, rfl, hs.opened⟩, hrest⟩
          | operator =>
            refine .error ⟨rfl, fun hp => ?_⟩
            rw [hu.span_eq hp, hv.span_eq hp]
          | _ => exact .error (blame_agrees hu _)
      | operand => exact .error (blame_agrees hu _)
      | _ => exact .error (blame_agrees hu _)

lemma readConnective_rel (hs : s.InStep placed s')
    (ht : Counterpart placed ctx.builtins ctx'.builtins t t')
    (h : List.Forall₂ (Counterpart placed ctx.builtins ctx'.builtins) tail tail') :
    Rel (Flagged.Agrees placed) (Progress.InStep placed ctx ctx') (s.readConnective t tail)
      (s'.readConnective t' tail') := by
  unfold readConnective
  rw [← hs.ready_eq, ← List.isEmpty_eq_of_forall₂ h]
  split_ifs
  · exact .error (blame_agrees ht _)
  · exact .error (blame_agrees ht _)
  · exact .ok ⟨Node.ofConnective_translates ht,
      ⟨rfl, congrArg some ht.group_eq, hs.opened⟩, h⟩

lemma readLeftParen_rel (hs : s.InStep placed s')
    (ht : Counterpart placed ctx.builtins ctx'.builtins t t')
    (h : List.Forall₂ (Counterpart placed ctx.builtins ctx'.builtins) tail tail') :
    Rel (Flagged.Agrees placed) (Progress.InStep placed ctx ctx') (s.readLeftParen t tail)
      (s'.readLeftParen t' tail') := by
  unfold readLeftParen
  rw [← hs.ready_eq]
  split_ifs
  · exact .error (blame_agrees ht _)
  · exact .ok ⟨.leftParen, ⟨rfl, congrArg some ht.group_eq,
      .cons (fun hp => congrArg Span.start (ht.span_eq hp)) hs.opened⟩, h⟩

lemma readRightParen_rel (hs : s.InStep placed s')
    (ht : Counterpart placed ctx.builtins ctx'.builtins t t')
    (h : List.Forall₂ (Counterpart placed ctx.builtins ctx'.builtins) tail tail') :
    Rel (Flagged.Agrees placed) (Progress.InStep placed ctx ctx') (s.readRightParen t tail)
      (s'.readRightParen t' tail') := by
  obtain ⟨ready, opened, previous⟩ := s
  obtain ⟨ready', opened', previous'⟩ := s'
  obtain ⟨rfl, rfl, hopened⟩ := hs
  unfold readRightParen
  split_ifs
  · exact .error (blame_agrees ht _)
  · cases hopened with
    | nil => exact .error (blame_agrees ht _)
    | cons _ _ => exact .error (blame_agrees ht _)
  · cases hopened with
    | nil => exact .error (blame_agrees ht _)
    | cons _ hopened =>
      exact .ok ⟨.rightParen, ⟨rfl, congrArg some ht.group_eq, hopened⟩, h⟩

/-- A step on counterparts reads the same part on both sides, or refuses both. -/
lemma step_rel (hs : s.InStep placed s')
    (ht : Counterpart placed ctx.builtins ctx'.builtins t t')
    (h : List.Forall₂ (Counterpart placed ctx.builtins ctx'.builtins) tail tail') :
    Rel (Flagged.Agrees placed) (Progress.InStep placed ctx ctx') (s.step ctx t tail)
      (s'.step ctx' t' tail') := by
  unfold step
  rw [← ht.group_eq]
  cases t.group with
  | operand => exact readCondition_rel hs ht h
  | connective => exact readConnective_rel hs ht h
  | leftParen => exact readLeftParen_rel hs ht h
  | rightParen => exact readRightParen_rel hs ht h
  | operator | leftBracket | rightBracket => exact .error (blame_agrees ht _)

/-! ## Runs -/

lemma finish_rel (hs : s.InStep placed s') :
    Rel (Flagged.Agrees placed) Eq s.finish s'.finish := by
  obtain ⟨ready, opened, previous⟩ := s
  obtain ⟨ready', opened', previous'⟩ := s'
  obtain ⟨rfl, -, hopened⟩ := hs
  cases hopened with
  | nil =>
    cases ready with
    | true => exact .error ⟨rfl, fun _ => rfl⟩
    | false => exact .ok rfl
  | cons hp _ => exact .error ⟨rfl, fun h => by rw [hp h]⟩

/-- A run is a step and the run behind it. -/
lemma run_cons (ctx : Context) (s : Reader) (t : Token) (tail : List Token) :
    s.run ctx (t :: tail) =
      s.step ctx t tail >>= fun p => (p.next.run ctx p.rest).map (p.node :: ·) := by
  rw [run]
  split
  · next h => rw [h]; rfl
  · next h => rw [h]; rfl

/-- Readers in step read the same parts from counterparts, or refuse both. -/
theorem run_rel {ts ts' : List Token} (hs : s.InStep placed s')
    (h : List.Forall₂ (Counterpart placed ctx.builtins ctx'.builtins) ts ts') :
    Rel (Flagged.Agrees placed)
      (List.Forall₂ (Node.Translates ctx.dialect ctx'.dialect)) (s.run ctx ts)
      (s'.run ctx' ts') := by
  induction hn : ts.length using Nat.strongRecOn generalizing s s' ts ts' with
  | ind n ih =>
    cases h with
    | nil =>
      rw [run, run]
      exact (finish_rel hs).map fun _ _ _ => .nil
    | @cons t t' tail tail' ht htail =>
      -- a step leaves fewer tokens than there were
      have hrest : ∀ p, s.step ctx t tail = .ok p → p.rest.length < n := fun p hp =>
        hn ▸ Nat.lt_succ_of_le (length_step_le hp)
      rw [run_cons, run_cons]
      have hstep := step_rel hs ht htail
      generalize s.step ctx t tail = x, s'.step ctx' t' tail' = x' at hstep hrest
      cases hstep with
      | error he => exact .error he
      | ok hp =>
        exact (ih _ (hrest _ rfl) hp.next hp.rest rfl).map fun _ _ hns => .cons hp.node hns

end Reader

/-- Counterparts are read as the same filter, or refused on both sides. -/
lemma read_rel {placed : Prop} (ctx ctx' : Context) {ts ts' : List Token}
    (h : List.Forall₂ (Counterpart placed ctx.builtins ctx'.builtins) ts ts') :
    Rel (Flagged.Agrees placed)
      (List.Forall₂ (Node.Translates ctx.dialect ctx'.dialect)) (read ctx ts)
      (read ctx' ts') := by
  unfold read
  rw [← List.isEmpty_eq_of_forall₂ h]
  split_ifs
  · exact .error ⟨rfl, fun _ => rfl⟩
  · exact Reader.run_rel ⟨rfl, rfl, .nil⟩ h

end Filter

namespace Compiler

/-- If the tokens of two filters are counterparts, then the filters are accepted alike, with nodes
that differ in the stored dialect at most. -/
theorem parse_rel {placed : Prop} {c c' : Compiler} {query query' : String}
    (hq : placed → query = query')
    (h : Rel (Flagged.Agrees placed) (List.Forall₂ (Counterpart placed c.builtins c'.builtins))
      (Token.ofSource c.builtins query) (Token.ofSource c'.builtins query')) :
    Rel (ParseError.Agrees placed) (List.Forall₂ (Node.Translates c.dialect c'.dialect))
      (c.parse query) (c'.parse query') := by
  refine (h.mapError fun _ _ he => (he.map .lexical).inSource hq).bind fun _ _ hraw => ?_
  refine ((Token.foldBrackets_rel hraw).mapError fun _ _ he => (he.map .list).inSource hq).bind
    fun _ _ hts => ?_
  exact (Filter.read_rel c.context c'.context hts).mapError fun _ _ he => he.inSource hq

/-- Compilers that find the same tokens in a source, with the same columns for the builtins among
them, accept it alike or refuse it with the same error. -/
theorem parse_rel_of_same_tokens (c c' : Compiler) (query : String)
    (htokens : Token.ofSource c.builtins query = Token.ofSource c'.builtins query)
    (hcolumns : ∀ ts, Token.ofSource c.builtins query = .ok ts → ∀ t ∈ ts, t.kind = .builtin →
      c.builtins.column? t.lexeme = c'.builtins.column? t.lexeme) :
    Rel Eq (List.Forall₂ (Node.Translates c.dialect c'.dialect)) (c.parse query)
      (c'.parse query) := by
  have h : Rel (ParseError.Agrees True) (List.Forall₂ (Node.Translates c.dialect c'.dialect))
      (c.parse query) (c'.parse query) :=
    parse_rel (fun _ => rfl) (htokens ▸ Token.rel_self hcolumns)
  exact h.mono (fun _ _ he => he.eq trivial) fun _ _ hns => hns

end Compiler
end ContentFilter
