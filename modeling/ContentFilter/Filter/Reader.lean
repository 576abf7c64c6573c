import ContentFilter.Filter.Node
/-!
# Reading a filter

A token sequence without brackets is read from left to right into nodes.  The reader keeps three
things: whether a condition must come next, the positions of the parentheses that are open, and
the group of the token read last.  A step reads a connective, a parenthesis, or a condition of
one or three tokens, for which it looks two tokens ahead.  At the end of the tokens no
parenthesis may be open and no condition may be due.
-/

namespace ContentFilter

namespace Filter

/-- What a reader of filters knows about the tokens behind it. -/
structure Reader where
  /-- Whether a condition, or a parenthesis that opens, must come next. -/
  ready : Bool
  /-- The positions of the open parentheses, the innermost first. -/
  opened : List Nat
  /-- The group of the token read last. -/
  previous : Option Group
deriving DecidableEq, Repr

namespace Reader

/-- The reader before the first token. -/
def initial : Reader := ⟨true, [], none⟩

/-- What a step of the reader gives. -/
structure Progress where
  /-- The node that was read. -/
  node : Node
  /-- The reader behind it. -/
  next : Reader
  /-- The tokens behind it. -/
  rest : List Token

/-- A fault in the shape of the filter, at a token. -/
def blame (t : Token) (cause : ShapeCause) : Flagged Cause := ⟨.shape cause, .span t.span⟩

/-- The node of a condition, or the fault at the token that the refusal names. -/
def accept (r : Except Refusal Node) : Except (Flagged Cause) Node :=
  r.mapError fun e => e.flagged.map .condition

/-- Read a condition that begins with the given operand. -/
def readCondition (ctx : Context) (s : Reader) (left : Token) (tail : List Token) :
    Except (Flagged Cause) Progress :=
  if !s.ready then .error (blame left .missingConnective)
  else
    match tail with
    | [] => do
      let node ← accept (Node.ofLone ctx left)
      return ⟨node, ⟨false, s.opened, some left.group⟩, []⟩
    | t :: tail' =>
      match t.group with
      | .connective | .rightParen => do
        let node ← accept (Node.ofLone ctx left)
        return ⟨node, ⟨false, s.opened, some left.group⟩, tail⟩
      | .operator =>
        match tail' with
        | [] => .error (blame t .missingValue)
        | right :: rest =>
          match right.group with
          | .operand => do
            let node ← accept (Node.ofTriple ctx left t right)
            return ⟨node, ⟨false, s.opened, some right.group⟩, rest⟩
          | .operator =>
            .error ⟨.shape .doubledOperator, .span (t.span.upTo right.span)⟩
          | _ => .error (blame t .missingValue)
      | .operand => .error (blame t .missingOperator)
      | _ => .error (blame t .unexpectedToken)

/-- Read a connective. -/
def readConnective (s : Reader) (t : Token) (tail : List Token) :
    Except (Flagged Cause) Progress :=
  if s.ready then .error (blame t .misplacedConnective)
  else if tail.isEmpty then .error (blame t .trailingConnective)
  else .ok ⟨Node.ofConnective t, ⟨true, s.opened, some t.group⟩, tail⟩

/-- Read a parenthesis that opens. -/
def readLeftParen (s : Reader) (t : Token) (tail : List Token) :
    Except (Flagged Cause) Progress :=
  if !s.ready then .error (blame t .missingConnectiveBeforeParen)
  else .ok ⟨.leftParen, ⟨true, t.span.start :: s.opened, some t.group⟩, tail⟩

/-- Read a parenthesis that closes. -/
def readRightParen (s : Reader) (t : Token) (tail : List Token) :
    Except (Flagged Cause) Progress :=
  if s.previous = some .leftParen then .error (blame t .emptyParens)
  else
    match s.opened with
    | [] => .error (blame t .unmatchedParen)
    | _ :: opened =>
      if s.ready then .error (blame t .incompleteGroup)
      else .ok ⟨.rightParen, ⟨false, opened, some t.group⟩, tail⟩

/-- Read the node that begins with the given token. -/
def step (ctx : Context) (s : Reader) (t : Token) (tail : List Token) :
    Except (Flagged Cause) Progress :=
  match t.group with
  | .operand => s.readCondition ctx t tail
  | .connective => s.readConnective t tail
  | .leftParen => s.readLeftParen t tail
  | .rightParen => s.readRightParen t tail
  | .operator => .error (blame t .operatorWithoutLeft)
  | .leftBracket | .rightBracket => .error (blame t .unexpectedBracket)

/-- Whether a filter may end where the reader stands. -/
def finish (s : Reader) : Except (Flagged Cause) Unit :=
  match s.opened with
  | position :: _ => .error ⟨.shape .unclosedParen, .span ⟨position, 1⟩⟩
  | [] => if s.ready then .error ⟨.shape .incomplete, .sourceEnd⟩ else .ok ()

theorem exists_of_bind_eq_ok {x : Except (Flagged Cause) Node} {f : Node → Progress}
    {p : Progress} (h : (do let node ← x; return f node) = Except.ok p) : ∃ n, p = f n := by
  cases x with
  | error e => simp [bind, Except.bind] at h
  | ok n => exact ⟨n, (Except.ok.inj h).symm⟩

/-- Reading a condition leaves no more tokens than follow its first one. -/
theorem length_readCondition_le {ctx : Context} {s : Reader} {t : Token} {tail : List Token}
    {p : Progress} (h : s.readCondition ctx t tail = .ok p) : p.rest.length ≤ tail.length := by
  unfold readCondition at h
  split at h
  · simp at h
  · split at h
    · obtain ⟨n, rfl⟩ := exists_of_bind_eq_ok h
      exact Nat.le_refl _
    · split at h
      · obtain ⟨n, rfl⟩ := exists_of_bind_eq_ok h
        exact Nat.le_refl _
      · obtain ⟨n, rfl⟩ := exists_of_bind_eq_ok h
        exact Nat.le_refl _
      · split at h
        · simp at h
        · split at h
          · obtain ⟨n, rfl⟩ := exists_of_bind_eq_ok h
            simp only [List.length_cons]
            omega
          · simp at h
          · simp at h
      · simp at h
      · simp at h

/-- A step leaves no more tokens than follow its first one. -/
theorem length_step_le {ctx : Context} {s : Reader} {t : Token} {tail : List Token}
    {p : Progress} (h : s.step ctx t tail = .ok p) : p.rest.length ≤ tail.length := by
  unfold step at h
  split at h
  · exact length_readCondition_le h
  · unfold readConnective at h
    split at h
    · simp at h
    · split at h
      · simp at h
      · obtain rfl := Except.ok.inj h
        exact Nat.le_refl _
  · unfold readLeftParen at h
    split at h
    · simp at h
    · obtain rfl := Except.ok.inj h
      exact Nat.le_refl _
  · unfold readRightParen at h
    split at h
    · simp at h
    · split at h
      · simp at h
      · split at h
        · simp at h
        · obtain rfl := Except.ok.inj h
          exact Nat.le_refl _
  · simp at h
  · simp at h
  · simp at h

/-- Read tokens to their end. -/
def run (ctx : Context) (s : Reader) : List Token → Except (Flagged Cause) (List Node)
  | [] => s.finish.map fun _ => []
  | t :: tail =>
    match _h : s.step ctx t tail with
    | .error e => .error e
    | .ok p => (p.next.run ctx p.rest).map (p.node :: ·)
termination_by ts => ts.length
decreasing_by
  have := length_step_le _h
  simp only [List.length_cons]
  omega

end Reader

/-- The nodes of a token sequence, or the first fault in it. -/
def read (ctx : Context) (ts : List Token) : Except (Flagged Cause) (List Node) :=
  if ts.isEmpty then .error ⟨.shape .emptyFilter, .sourceEnd⟩
  else Reader.initial.run ctx ts

/-- The nodes of the tokens of a source, or its refusal. -/
def nodes (ctx : Context) (source : String) (ts : List Token) : Except ParseError (List Node) :=
  (read ctx ts).mapError (.inSource source)

end Filter
end ContentFilter
