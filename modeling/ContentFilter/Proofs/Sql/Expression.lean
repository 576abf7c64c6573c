import ContentFilter.Proofs.Sql.Connective
import ContentFilter.Proofs.Sql.Mark
/-!
# Reading expressions in SQL

The marks of a text are an expression: what is applied last in them is the last of the weakest
operators outside of all parentheses, and what stands on either side of it are expressions again
(`Sql.parse`).  So all operators associate to the left.

Marks are firm at a rank if no operator outside of parentheses is weaker (`firm`).  An operator is
applied to the marks on both sides of it if those on its left are firm at its own rank and those
on its right above it (`Reads.binary`).  Each way to compose expressions has such a lemma, and an
expression is read by putting them together.
-/

namespace ContentFilter
namespace Sql

/-! ## Expressions -/

/-- An expression of SQL. -/
inductive Expr where
  /-- A name, a number, a placeholder or a literal. -/
  | atom (marks : List Mark)
  | not (e : Expr)
  | minus (e : Expr)
  | binary (op : Binary) (left right : Expr)
  /-- A call without arguments. -/
  | nullary (function : List Char)
  /-- A call; several arguments are joined by commas. -/
  | call (function : List Char) (arguments : Expr)
  /-- Some row of the source satisfies the condition. -/
  | someRow (source : List Mark) (condition : Expr)
deriving DecidableEq, Repr

/-- What is applied last in an expression, and to which marks. -/
inductive Root where
  | binary (before : List Mark) (op : Binary) (behind : List Mark)
  | not (rest : List Mark)
  | minus (rest : List Mark)
  /-- An expression in parentheses. -/
  | group (inner : List Mark)
  | nullary (function : List Char)
  | call (function : List Char) (arguments : List Mark)
  | someRow (source condition : List Mark)
  | atom
  /-- The marks are no expression. -/
  | nothing
deriving DecidableEq, Repr

namespace Mark

/-- How tight a mark binds what is beside it, if it does. -/
def rank? : Mark → Option Nat
  | binary op => some op.rank
  | not => some Binary.notRank
  | _ => none

/-- The depth of the parentheses behind a mark. -/
def after (d : Nat) : Mark → Nat
  | leftParen => d + 1
  | rightParen => d - 1
  | _ => d

/-- The mark closes a parenthesis, or binds weaker than `k`. -/
def breaks (k : Nat) (m : Mark) : Bool := m = rightParen || m.rank?.any (· < k)

/-- The operator that a mark is outside of parentheses. -/
def operatorAt? : Nat → Mark → Option Binary
  | 0, binary op => some op
  | _, _ => none

/-- The marks of names, numbers, placeholders and literals. -/
def isPlain : Mark → Bool
  | word _ | literal _ | other _ => true
  | _ => false

/-- The mark is a keyword, which is given in lower case. -/
def isKeyword (keyword : String) : Mark → Bool
  | word w => w.map Char.toLower = keyword.toList
  | _ => false

end Mark

/-- Follow the depth of the parentheses, from a given one.  At depth zero no parenthesis may close,
and nothing may bind weaker than `k`. -/
def firm (k : Nat) : Nat → List Mark → Option Nat
  | d, [] => some d
  | d, m :: r => if d = 0 ∧ m.breaks k = true then none else firm k (m.after d) r

/-- An operator with the marks on both sides of it. -/
structure Cut where
  before : List Mark
  op : Binary
  behind : List Mark
deriving DecidableEq, Repr

/-- The cut with one more mark in front. -/
def Cut.push (m : Mark) (c : Cut) : Cut := ⟨m :: c.before, c.op, c.behind⟩

/-- The last of the weakest operators outside of parentheses. -/
def weakest : Nat → List Mark → Option Cut
  | _, [] => none
  | d, m :: r =>
    match weakest (m.after d) r, m.operatorAt? d with
    | some c, some op => if op.rank < c.op.rank then some ⟨[], op, r⟩ else some (c.push m)
    | some c, none => some (c.push m)
    | none, some op => some ⟨[], op, r⟩
    | none, none => none

/-- What stands in front of a parenthesis that closes at the end, if nothing closes before. -/
def enclosed? (r : List Mark) : Option (List Mark) :=
  if r.getLast? = some .rightParen ∧ firm 0 0 r.dropLast = some 0 then some r.dropLast else none

/-- The source and the condition of a query that selects `1`. -/
def query? : List Mark → Option (List Mark × List Mark)
  | m₁ :: m₂ :: m₃ :: r =>
    let source := r.takeWhile fun m => !m.isKeyword "where"
    if m₁.isKeyword "select" ∧ m₂ = .word ['1'] ∧ m₃.isKeyword "from" ∧ firm 0 0 source = some 0
    then some (source, (r.dropWhile fun m => !m.isKeyword "where").tail)
    else none
  | _ => none

/-- The root of a call. -/
def callRoot (function : List Char) (inner : List Mark) : Root :=
  if (Mark.word function).isKeyword "exists" then
    match query? inner with
    | some (source, condition) => .someRow source condition
    | none => .nothing
  else if inner = [] then .nullary function
  else .call function inner

/-- What is applied last where no operator stands outside of parentheses. -/
def primary (ms : List Mark) : Root :=
  match ms with
  | .not :: r => .not r
  | .minus :: r => .minus r
  | .leftParen :: r => (enclosed? r).elim .nothing .group
  | .word function :: .leftParen :: r =>
    (enclosed? r).elim .nothing (callRoot function)
  | _ => if ms ≠ [] ∧ ms.all Mark.isPlain = true then .atom else .nothing

/-- A `NOT` that stands directly in front of the operator of a cut is part of it. -/
def Cut.root (c : Cut) : Root :=
  match c.before.getLast?, c.op.negated? with
  | some .not, some op => .binary c.before.dropLast op c.behind
  | _, _ => .binary c.before c.op c.behind

/-- What is applied last. -/
def root (ms : List Mark) : Root :=
  match weakest 0 ms with
  | some c => if ms.head? = some .not ∧ Binary.notRank < c.op.rank then .not ms.tail else c.root
  | none => primary ms

/-- The marks of the expressions that the root is applied to. -/
def Root.operands : Root → List (List Mark)
  | binary before _ behind => [before, behind]
  | not rest | minus rest => [rest]
  | group inner | call _ inner => [inner]
  | someRow _ condition => [condition]
  | nullary _ | atom | nothing => []

lemma Mark.eq_of_operatorAt {d : Nat} {m : Mark} {op : Binary} (h : m.operatorAt? d = some op) :
    d = 0 ∧ m = .binary op := by
  cases d <;> cases m <;> simp_all [operatorAt?]

lemma eq_of_weakest {d : Nat} {ms : List Mark} {c : Cut} (h : weakest d ms = some c) :
    ms = c.before ++ .binary c.op :: c.behind := by
  induction ms generalizing d c with
  | nil => simp [weakest] at h
  | cons m ms ih =>
    rw [weakest] at h
    split at h
    · next c' op hc hm =>
      split at h
      · obtain rfl := Option.some.inj h
        rw [(Mark.eq_of_operatorAt hm).2]
        rfl
      · obtain rfl := Option.some.inj h
        rw [ih hc]
        rfl
    · next c' hc _ =>
      obtain rfl := Option.some.inj h
      rw [ih hc]
      rfl
    · next op _ hm =>
      obtain rfl := Option.some.inj h
      rw [(Mark.eq_of_operatorAt hm).2]
      rfl
    · cases h

lemma length_enclosed_le {r inner : List Mark} (h : enclosed? r = some inner) :
    inner.length ≤ r.length := by
  unfold enclosed? at h
  split at h
  · obtain rfl := Option.some.inj h
    simp
  · cases h

lemma length_query_lt {r source condition : List Mark} (h : query? r = some (source, condition)) :
    condition.length < r.length := by
  unfold query? at h
  split at h
  · next m₁ m₂ m₃ r =>
    simp only at h
    split at h
    · obtain ⟨-, rfl⟩ := by simpa using h
      have := (List.dropWhile_suffix (fun m => !m.isKeyword "where") (l := r)).length_le
      simp only [List.length_tail, List.length_cons]
      omega
    · cases h
  · cases h

lemma length_le_of_mem_callRoot {function : List Char} {inner operand : List Mark}
    (h : operand ∈ (callRoot function inner).operands) : operand.length ≤ inner.length := by
  unfold callRoot at h
  split at h
  · split at h
    · next source condition hquery =>
      obtain rfl := by simpa [Root.operands] using h
      exact (length_query_lt hquery).le
    · simp [Root.operands] at h
  · split at h
    · simp [Root.operands] at h
    · obtain rfl := by simpa [Root.operands] using h
      exact Nat.le_refl _

lemma length_lt_of_mem_primary {ms operand : List Mark} (h : operand ∈ (primary ms).operands) :
    operand.length < ms.length := by
  unfold primary at h
  split at h
  · obtain rfl := by simpa [Root.operands] using h
    simp
  · obtain rfl := by simpa [Root.operands] using h
    simp
  · next r =>
    cases henclosed : enclosed? r with
    | none => simp [henclosed, Root.operands] at h
    | some inner =>
      obtain rfl : operand = inner := by simpa [henclosed, Root.operands] using h
      exact Nat.lt_succ_of_le (length_enclosed_le henclosed)
  · next function r =>
    cases henclosed : enclosed? r with
    | none => simp [henclosed, Root.operands] at h
    | some inner =>
      rw [henclosed] at h
      have hcall := length_le_of_mem_callRoot h
      have henclosed := length_enclosed_le henclosed
      simp only [List.length_cons]
      omega
  · split at h <;> simp [Root.operands] at h

lemma length_lt_of_mem_root {c : Cut} {operand : List Mark} (h : operand ∈ c.root.operands) :
    operand.length < (c.before ++ .binary c.op :: c.behind).length := by
  have hdrop : c.before.dropLast.length = c.before.length - 1 := List.length_dropLast
  unfold Cut.root at h
  split at h
  all_goals
    simp only [Root.operands, List.mem_cons, List.not_mem_nil, or_false] at h
    simp only [List.length_append, List.length_cons]
    rcases h with rfl | rfl <;> omega

/-- What the root is applied to is shorter than the whole. -/
lemma length_lt_of_mem_operands {ms operand : List Mark} (h : operand ∈ (root ms).operands) :
    operand.length < ms.length := by
  unfold root at h
  split at h
  · next c hc =>
    split at h
    · next hnot =>
      obtain rfl := by simpa [Root.operands] using h
      cases ms with
      | nil => simp at hnot
      | cons m ms => simp
    · rw [eq_of_weakest hc]
      exact length_lt_of_mem_root h
  · exact length_lt_of_mem_primary h

/-- The expression that the marks are. -/
def parse (ms : List Mark) : Option Expr :=
  match _h : root ms with
  | .binary before op behind =>
    (parse before).bind fun l => (parse behind).map fun r => .binary op l r
  | .not rest => (parse rest).map .not
  | .minus rest => (parse rest).map .minus
  | .group inner => parse inner
  | .nullary function => some (.nullary function)
  | .call function inner => (parse inner).map (.call function)
  | .someRow source condition => (parse condition).map (.someRow source)
  | .atom => some (.atom ms)
  | .nothing => none
termination_by ms.length
decreasing_by
  all_goals exact length_lt_of_mem_operands (by rw [_h]; simp [Root.operands])

/-- The expression that a text is. -/
def expression? (text : String) : Option Expr := (signsOf text).bind fun ls => parse (marks ls)

/-! ## Going through marks -/

section

variable {k j d e : Nat} {us vs ms : List Mark} {m : Mark}

lemma firm_cons (h : firm k d (m :: ms) = some e) :
    ¬(d = 0 ∧ m.breaks k = true) ∧ firm k (m.after d) ms = some e := by
  rw [firm] at h
  split at h
  · cases h
  · next hm => exact ⟨hm, h⟩

lemma firm_append (d : Nat) (us vs : List Mark) :
    firm k d (us ++ vs) = (firm k d us).bind fun e => firm k e vs := by
  induction us generalizing d with
  | nil => rfl
  | cons m us ih =>
    rw [List.cons_append, firm, firm]
    split
    · rfl
    · exact ih _

lemma Mark.breaks_of_le (hjk : j ≤ k) (h : m.breaks j = true) : m.breaks k = true := by
  simp only [breaks, Bool.or_eq_true, decide_eq_true_eq, Option.any_eq_true] at h ⊢
  exact h.imp_right fun ⟨r, hr, hlt⟩ => ⟨r, hr, by omega⟩

/-- What is firm is so with weaker operators allowed. -/
lemma firm_weaken (hjk : j ≤ k) (h : firm k d ms = some e) : firm j d ms = some e := by
  induction ms generalizing d with
  | nil => exact h
  | cons m ms ih =>
    obtain ⟨hm, hms⟩ := firm_cons h
    rw [firm, if_neg fun hj => hm ⟨hj.1, Mark.breaks_of_le hjk hj.2⟩]
    exact ih hms

/-- Inside of parentheses everything is allowed. -/
lemma firm_inside (j : Nat) (h : firm k d ms = some e) : firm j (d + 1) ms = some (e + 1) := by
  induction ms generalizing d with
  | nil => simpa [firm] using h
  | cons m ms ih =>
    obtain ⟨hm, hms⟩ := firm_cons h
    have hafter : m.after (d + 1) = m.after d + 1 := by
      cases m with
      | rightParen =>
        cases d with
        | zero => simp [Mark.breaks] at hm
        | succ d => rfl
      | _ => rfl
    rw [firm, if_neg (by omega), hafter]
    exact ih hms

/-- What is in parentheses is firm. -/
lemma firm_parens (j : Nat) (h : firm k 0 ms = some 0) :
    firm j 0 (.leftParen :: (ms ++ [.rightParen])) = some 0 := by
  have hms := firm_inside j h
  simp [firm, Mark.breaks, Mark.rank?, Mark.after, firm_append] at hms ⊢
  simp [hms]

/-- An operator outside of parentheses is not weaker than what is firm. -/
lemma le_rank_of_operatorAt {op : Binary} (hm : ¬(d = 0 ∧ m.breaks k = true))
    (h : m.operatorAt? d = some op) : k ≤ op.rank := by
  obtain ⟨rfl, rfl⟩ := Mark.eq_of_operatorAt h
  simpa [Mark.breaks, Mark.rank?] using hm

/-- The weakest operator of what is firm is not weaker than that. -/
lemma le_rank_of_weakest {c : Cut} (h : firm k d ms = some e) (hc : weakest d ms = some c) :
    k ≤ c.op.rank := by
  induction ms generalizing d c with
  | nil => simp [weakest] at hc
  | cons m ms ih =>
    obtain ⟨hm, hms⟩ := firm_cons h
    rw [weakest] at hc
    split at hc
    · next c' op hc' hop =>
      have hrest := ih hms hc'
      split at hc
      · obtain rfl := Option.some.inj hc
        exact le_rank_of_operatorAt hm hop
      · obtain rfl := Option.some.inj hc
        exact hrest
    · next c' hc' _ =>
      have hrest := ih hms hc'
      obtain rfl := Option.some.inj hc
      exact hrest
    · next op _ hop =>
      obtain rfl := Option.some.inj hc
      exact le_rank_of_operatorAt hm hop
    · cases hc

/-- A weaker operator behind what is firm is the weakest one. -/
lemma weakest_append {c : Cut} (h : firm k d us = some e) (hc : weakest e vs = some c)
    (hk : c.op.rank ≤ k) : weakest d (us ++ vs) = some ⟨us ++ c.before, c.op, c.behind⟩ := by
  induction us generalizing d with
  | nil =>
    obtain rfl := Option.some.inj h
    exact hc
  | cons m us ih =>
    obtain ⟨hm, hus⟩ := firm_cons h
    rw [List.cons_append, weakest, ih hus]
    cases hop : m.operatorAt? d with
    | none => rfl
    | some op =>
      have hle := le_rank_of_operatorAt hm hop
      simp only
      rw [if_neg (by omega)]
      rfl

/-- No operator stands outside of parentheses in what is firmer than all of them. -/
lemma weakest_eq_none (h : firm Binary.tightest d ms = some e) : weakest d ms = none := by
  cases hc : weakest d ms with
  | none => rfl
  | some c => exact absurd (le_rank_of_weakest h hc) (Nat.not_le.2 c.op.rank_lt_tightest)

end

/-! ## Composing expressions -/

/-- The expression with a root, given how its operands are read. -/
def Root.expr? (read : List Mark → Option Expr) (ms : List Mark) : Root → Option Expr
  | binary before op behind => (read before).bind fun l => (read behind).map fun r => .binary op l r
  | not rest => (read rest).map .not
  | minus rest => (read rest).map .minus
  | group inner => read inner
  | nullary function => some (.nullary function)
  | call function inner => (read inner).map (.call function)
  | someRow source condition => (read condition).map (.someRow source)
  | atom => some (.atom ms)
  | nothing => none

lemma parse_eq (ms : List Mark) : parse ms = (root ms).expr? parse ms := by
  rw [parse]
  split <;> next h => rw [h, Root.expr?]

/-- The marks are an expression, and outside of parentheses nothing in them binds weaker than
`k`. -/
structure Reads (k : Nat) (ms : List Mark) (e : Expr) : Prop where
  firm : firm k 0 ms = some 0
  parse : parse ms = some e

namespace Reads

variable {j k : Nat} {ls rs ms : List Mark} {l r e : Expr} {op op' : Binary} {m : Mark}

lemma weaken (h : Reads k ms e) (hjk : j ≤ k) : Reads j ms e := ⟨firm_weaken hjk h.firm, h.parse⟩

lemma ne_nil (h : Reads k ms e) : ms ≠ [] := by
  rintro rfl
  have hparse := h.parse
  rw [parse_eq] at hparse
  simp [root, weakest, primary, Root.expr?] at hparse

/-- What is firmer than `NOT` neither begins nor ends with it. -/
lemma not_first (h : Reads k ms e) (rest : List Mark) :
    ¬((ms ++ rest).head? = some .not ∧ Binary.notRank < k) := by
  rintro ⟨hhead, hk⟩
  rw [List.head?_append_of_ne_nil _ h.ne_nil] at hhead
  obtain ⟨tail, rfl⟩ := List.head?_eq_some_iff.1 hhead
  exact (firm_cons h.firm).1 ⟨rfl, by simpa [Mark.breaks, Mark.rank?] using hk⟩

lemma not_last (h : Reads k ms e) (hk : Binary.notRank < k) : ms.getLast? ≠ some .not := by
  intro hlast
  obtain ⟨us, rfl⟩ := List.getLast?_eq_some_iff.1 hlast
  have hfirm := h.firm
  rw [firm_append] at hfirm
  obtain ⟨d, -, hnot⟩ := Option.bind_eq_some_iff.1 hfirm
  obtain ⟨hbreaks, hd⟩ := firm_cons hnot
  obtain rfl : d = 0 := by simpa [Sql.firm, Mark.after] using hd
  exact hbreaks ⟨rfl, by simpa [Mark.breaks, Mark.rank?] using hk⟩

/-- A name, a number, a placeholder or a literal is an expression. -/
lemma atom (hne : ms ≠ []) (h : ∀ m ∈ ms, m.isPlain = true) : Reads k ms (.atom ms) := by
  have hfirm : ∀ j us, (∀ m ∈ us, m.isPlain = true) → Sql.firm j 0 us = some 0 := by
    intro j us hus
    induction us with
    | nil => rfl
    | cons m us ih =>
      have hm := hus m List.mem_cons_self
      have htail := ih fun x hx => hus x (List.mem_cons_of_mem m hx)
      cases m with
      | word w => exact htail
      | literal s => exact htail
      | other c => exact htail
      | _ => cases hm
  refine ⟨hfirm k ms h, ?_⟩
  have hall : ms.all Mark.isPlain = true := List.all_eq_true.2 h
  have hroot : root ms = .atom := by
    rw [root, weakest_eq_none (hfirm _ ms h)]
    simp only [primary]
    split
    · simp [Mark.isPlain] at hall
    · simp [Mark.isPlain] at hall
    · simp [Mark.isPlain] at hall
    · simp [Mark.isPlain] at hall
    · rw [if_pos ⟨hne, hall⟩]
  rw [parse_eq, hroot]
  rfl

lemma weakest_binary (hl : Sql.firm op.rank 0 ls = some 0)
    (hr : Sql.firm (op.rank + 1) 0 rs = some 0) :
    weakest 0 (ls ++ .binary op :: rs) = some ⟨ls, op, rs⟩ := by
  have hop : weakest 0 (.binary op :: rs) = some ⟨[], op, rs⟩ := by
    rw [weakest]
    simp only [Mark.after, Mark.operatorAt?]
    cases hc : weakest 0 rs with
    | none => rfl
    | some c =>
      -- what is weakest behind the operator binds tighter than it
      have hlt := le_rank_of_weakest hr hc
      simp only
      rw [if_pos (by omega)]
  simpa using weakest_append hl hop (Nat.le_refl _)

/-- An operator joins what binds at least as tight on its left and what binds tighter on its
right. -/
lemma binary (hl : Reads op.rank ls l) (hr : Reads (op.rank + 1) rs r) :
    Reads op.rank (ls ++ .binary op :: rs) (.binary op l r) := by
  have hroot : root (ls ++ .binary op :: rs) = .binary ls op rs := by
    rw [root, weakest_binary hl.firm hr.firm]
    simp only [if_neg (hl.not_first _), Cut.root]
    split
    · next op' hlast hneg =>
      refine absurd hlast (hl.not_last ?_)
      cases op with
      | operator o => cases o <;> simp_all [Binary.negated?, Binary.rank, Binary.notRank]
      | _ => simp [Binary.negated?] at hneg
    · rfl
  refine ⟨?_, ?_⟩
  · have hop : Sql.firm op.rank 0 (.binary op :: rs) = some 0 := by
      rw [Sql.firm, if_neg (by simp [Mark.breaks, Mark.rank?])]
      exact firm_weaken (Nat.le_succ _) hr.firm
    rw [firm_append, hl.firm]
    exact hop
  · rw [parse_eq, hroot]
    simp [Root.expr?, hl.parse, hr.parse]

/-- Arrows are applied from left to right. -/
lemma arrow (hl : Reads Binary.arrowRank ls l) (symbol : String)
    (hr : Reads (Binary.arrowRank + 1) rs r) :
    Reads Binary.arrowRank (ls ++ .binary (.arrow symbol) :: rs) (.binary (.arrow symbol) l r) :=
  have hl : Reads (Binary.arrow symbol).rank ls l := hl
  hl.binary hr

/-- A negated operator, with its `NOT`. -/
lemma negated (hop : op.negated? = some op') (hl : Reads op.rank ls l)
    (hr : Reads (op.rank + 1) rs r) :
    Reads Binary.notRank (ls ++ .not :: .binary op :: rs) (.binary op' l r) := by
  have hrank : Binary.notRank < op.rank := by
    cases op with
    | operator o => cases o <;> simp_all [Binary.negated?, Binary.rank, Binary.notRank]
    | _ => simp [Binary.negated?] at hop
  have hroot : root (ls ++ .not :: .binary op :: rs) = .binary ls op' rs := by
    have hcut : weakest 0 (.not :: .binary op :: rs) = some ⟨[.not], op, rs⟩ := by
      have hrest : weakest 0 (.binary op :: rs) = some ⟨[], op, rs⟩ :=
        weakest_binary (rfl : Sql.firm op.rank 0 [] = some 0) hr.firm
      rw [weakest]
      simp only [Mark.after, hrest, Mark.operatorAt?]
      rfl
    rw [root, weakest_append hl.firm hcut (Nat.le_refl _)]
    simp only [if_neg (hl.not_first _), Cut.root]
    simp [hop]
  refine ⟨?_, ?_⟩
  · have htail : Sql.firm Binary.notRank 0 (.not :: .binary op :: rs) = some 0 := by
      have hrest := firm_weaken (by omega : Binary.notRank ≤ op.rank + 1) hr.firm
      simpa [Sql.firm, Mark.breaks, Mark.rank?, Mark.after, hrest] using hrank.le
    rw [firm_append, firm_weaken hrank.le hl.firm]
    exact htail
  · rw [parse_eq, hroot]
    simp [Root.expr?, hl.parse, hr.parse]

/-- A `NOT` in front. -/
lemma not (h : Reads Binary.notRank ms e) : Reads Binary.notRank (.not :: ms) (.not e) := by
  have hroot : root (.not :: ms) = .not ms := by
    have hnot : weakest 0 (.not :: ms) = (weakest 0 ms).map (Cut.push .not) := by
      rw [weakest]
      simp only [Mark.after, Mark.operatorAt?]
      cases weakest 0 ms <;> rfl
    rw [root, hnot]
    cases hc : weakest 0 ms with
    | none => rfl
    | some c =>
      -- no operator has the rank of `NOT`
      have hne : c.op.rank ≠ Binary.notRank := by
        cases c.op with
        | operator o => cases o <;> simp [Binary.rank, Binary.notRank, Binary.arrowRank]
        | _ => simp [Binary.rank, Binary.notRank, Binary.arrowRank]
      have hlt : Binary.notRank < c.op.rank :=
        Nat.lt_of_le_of_ne (le_rank_of_weakest h.firm hc) hne.symm
      simp [Cut.push, hlt]
  refine ⟨?_, ?_⟩
  · rw [Sql.firm, if_neg (by simp [Mark.breaks, Mark.rank?])]
    exact h.firm
  · rw [parse_eq, hroot]
    simp [Root.expr?, h.parse]

/-- The sign of a negative number. -/
lemma minus (h : Reads Binary.tightest ms e) : Reads Binary.tightest (.minus :: ms) (.minus e) := by
  have hfirm : Sql.firm Binary.tightest 0 (.minus :: ms) = some 0 := by
    rw [Sql.firm, if_neg (by simp [Mark.breaks, Mark.rank?])]
    exact h.firm
  refine ⟨hfirm, ?_⟩
  have hroot : root (.minus :: ms) = .minus ms := by
    rw [root, weakest_eq_none hfirm]
    rfl
  rw [parse_eq, hroot]
  simp [Root.expr?, h.parse]

lemma enclosed_concat (h : Sql.firm k 0 ms = some 0) :
    enclosed? (ms ++ [.rightParen]) = some ms := by
  have hfirm := firm_weaken (Nat.zero_le k) h
  simp [enclosed?, hfirm]

/-- An expression in parentheses. -/
lemma group (h : Reads k ms e) : Reads j (.leftParen :: (ms ++ [.rightParen])) e := by
  have hroot : root (.leftParen :: (ms ++ [.rightParen])) = .group ms := by
    rw [root, weakest_eq_none (firm_parens _ h.firm)]
    simp [primary, enclosed_concat h.firm]
  refine ⟨firm_parens j h.firm, ?_⟩
  rw [parse_eq, hroot]
  exact h.parse

section

variable {function : List Char}

lemma firm_called (j : Nat) (h : Sql.firm k 0 ms = some 0) :
    Sql.firm j 0 (.word function :: .leftParen :: (ms ++ [.rightParen])) = some 0 := by
  rw [Sql.firm, if_neg (by simp [Mark.breaks, Mark.rank?])]
  exact firm_parens j h

lemma root_called (h : Sql.firm k 0 ms = some 0) :
    root (.word function :: .leftParen :: (ms ++ [.rightParen])) = callRoot function ms := by
  rw [root, weakest_eq_none (firm_called _ h)]
  simp [primary, enclosed_concat h]

/-- A call of a function. -/
lemma call (hf : (Mark.word function).isKeyword "exists" = false) (h : Reads k ms e) :
    Reads j (.word function :: .leftParen :: (ms ++ [.rightParen])) (.call function e) := by
  refine ⟨firm_called j h.firm, ?_⟩
  rw [parse_eq, root_called h.firm, callRoot, if_neg (by simp [hf]), if_neg h.ne_nil]
  simp [Root.expr?, h.parse]

/-- A call without arguments. -/
lemma nullary (hf : (Mark.word function).isKeyword "exists" = false) :
    Reads j [.word function, .leftParen, .rightParen] (.nullary function) := by
  have hnil : Sql.firm 0 0 [] = some 0 := rfl
  refine ⟨firm_called j hnil, ?_⟩
  have hroot : root [.word function, .leftParen, .rightParen] = callRoot function [] :=
    root_called hnil
  rw [parse_eq, hroot, callRoot, if_neg (by simp [hf]), if_pos rfl]
  rfl

/-- A subquery that looks for a row. -/
lemma someRow {exists' select from' where' : List Char} {source : List Mark}
    (hexists : (Mark.word exists').isKeyword "exists" = true)
    (hselect : (Mark.word select).isKeyword "select" = true)
    (hfrom : (Mark.word from').isKeyword "from" = true)
    (hwhere : (Mark.word where').isKeyword "where" = true)
    (hsource : Sql.firm 0 0 source = some 0)
    (hnone : (source.all fun m => !m.isKeyword "where") = true) (h : Reads k ms e) :
    Reads j (.word exists' :: .leftParen :: ((.word select :: .word ['1'] :: .word from' ::
      (source ++ .word where' :: ms)) ++ [.rightParen])) (.someRow source e) := by
  have hfirm : Sql.firm 0 0 (.word select :: .word ['1'] :: .word from' ::
      (source ++ .word where' :: ms)) = some 0 := by
    have htail := firm_weaken (Nat.zero_le k) h.firm
    simp [Sql.firm, Mark.breaks, Mark.rank?, Mark.after, firm_append, hsource, htail]
  have hkeep : ∀ m ∈ source, (!m.isKeyword "where") = true := List.all_eq_true.1 hnone
  have hquery : query? (.word select :: .word ['1'] :: .word from' ::
      (source ++ .word where' :: ms)) = some (source, ms) := by
    have htake : (source ++ .word where' :: ms).takeWhile (fun m => !m.isKeyword "where") =
        source := by
      rw [List.takeWhile_append_of_pos hkeep, List.takeWhile_cons_of_neg (by simp [hwhere]),
        List.append_nil]
    have hdrop : (source ++ .word where' :: ms).dropWhile (fun m => !m.isKeyword "where") =
        .word where' :: ms := by
      rw [List.dropWhile_append_of_pos hkeep, List.dropWhile_cons_of_neg (by simp [hwhere])]
    simp [query?, htake, hdrop, hselect, hfrom, hsource]
  refine ⟨firm_called j hfirm, ?_⟩
  rw [parse_eq, root_called hfirm, callRoot, if_pos hexists, hquery]
  simp [Root.expr?, h.parse]

end

end Reads

end Sql
end ContentFilter
