import ContentFilter.Token.Lexeme
/-!
# Scanning a source

A scanner stands at a position of a source and has the remaining characters before it.  A step
passes over the gap, which is made of blanks and commas, and reads one lexeme; the token is the
lexeme with its span in the source.  A step that fails says where the scanner stands then, so
that scanning can be taken up again.  The tokens of a source are those of all steps, or the first
fault.
-/

namespace ContentFilter

open Text

/-- Characters between tokens that carry no meaning: blanks and commas. -/
def isGap (c : Char) : Bool := isBlank c || c = ','

/-- A place in a source with what lies before it. -/
structure Scanner where
  /-- The number of characters passed. -/
  position : Nat
  /-- The characters that remain. -/
  rest : List Char
deriving Repr

namespace Scanner

/-- A scanner at the start of a source. -/
def start (source : String) : Scanner := ⟨0, source.toList⟩

/-- The scanner some characters further on. -/
def advance (s : Scanner) (n : Nat) : Scanner := ⟨s.position + n, s.rest.drop n⟩

/-- The scanner behind the gap it stands at. -/
def skipGap (s : Scanner) : Scanner :=
  s.advance (s.rest.takeWhile isGap).length

/-- What a step of the scanner gives. -/
inductive Step where
  /-- Nothing but a gap remains. -/
  | finished
  /-- A token, and the scanner behind it. -/
  | token (token : Token) (next : Scanner)
  /-- A fault, and the scanner where it was noticed. -/
  | fault (fault : Flagged LexicalCause) (resume : Scanner)
deriving Repr

/-- The token of a lexeme at a position of the source. -/
def tokenAt (position : Nat) (l : Lexeme) : Token :=
  Token.plain l.kind ⟨position, l.len⟩ (String.ofList l.text)

/-- The fault of a misreading at a position of the source. -/
def faultAt (position : Nat) (m : Misread) : Flagged LexicalCause :=
  ⟨m.cause, .span ⟨position + m.span.start, m.span.len⟩⟩

/-- Pass over the gap and read one token. -/
def step (b : Builtins) (s : Scanner) : Step :=
  let s := s.skipGap
  match s.rest with
  | [] => .finished
  | c :: r =>
    match Lexeme.read b c r with
    | .ok l => .token (tokenAt s.position l) (s.advance l.len)
    | .error m => .fault (faultAt s.position m) (s.advance m.consumed)

theorem length_advance_le (s : Scanner) (n : Nat) :
    (s.advance n).rest.length ≤ s.rest.length := by
  simp [advance]

/-- A token leaves fewer characters than there were. -/
theorem length_step_lt {b : Builtins} {s next : Scanner} {t : Token}
    (h : s.step b = .token t next) : next.rest.length < s.rest.length := by
  have hs : s.skipGap.rest.length ≤ s.rest.length := s.length_advance_le _
  unfold step at h
  simp only at h
  split at h
  · simp at h
  · next c r hr =>
    split at h
    · next l hl =>
      obtain ⟨_, rfl⟩ := Step.token.inj h
      have hpos := Lexeme.read_len_pos hl
      rw [hr] at hs
      simp only [List.length_cons] at hs
      simp only [advance, hr, List.length_drop, List.length_cons]
      omega
    · simp at h

/-- The tokens from where the scanner stands to the end of the source, or the first fault. -/
def tokens (b : Builtins) (s : Scanner) : Except (Flagged LexicalCause) (List Token) :=
  match _h : s.step b with
  | .finished => .ok []
  | .token t next => (next.tokens b).map (t :: ·)
  | .fault e _ => .error e
termination_by s.rest.length
decreasing_by exact length_step_lt _h

end Scanner

namespace Token

/-- The tokens of a source, or the first fault in it. -/
def ofSource (b : Builtins) (source : String) : Except (Flagged LexicalCause) (List Token) :=
  (Scanner.start source).tokens b

/-- The tokens of a source, or its refusal. -/
def scan (b : Builtins) (source : String) : Except ParseError (List Token) :=
  (ofSource b source).mapError fun e => .inSource source (e.map .lexical)

end Token
end ContentFilter
