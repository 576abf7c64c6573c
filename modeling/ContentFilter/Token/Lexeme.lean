import ContentFilter.Builtins
import ContentFilter.Cause
import ContentFilter.Text.Blank
import ContentFilter.Text.Numeral
/-!
# Lexemes

A lexeme is what is read at the head of a text: a kind, the text it stands for, and the number of
characters it takes up.  Reading a lexeme depends on the characters alone and not on where they
stand in the source, so that positions are added afterwards.  There are four forms.

* Delimiters and operators have fixed spellings, and of two spellings that fit the longer one is
  read.
* A string runs to the first occurrence of its delimiter that no backslash precedes; a backslash
  before the delimiter is dropped, any other stays.
* A number is an optional minus sign, digits, and an optional point with more digits.
* A name is a letter and name characters, then segments behind single dots, and at the end
  perhaps a wildcard behind a dot.

A reading that fails tells what is wrong, which of the characters are at fault, and how many
characters were read before it was noticed.
-/

namespace ContentFilter

open Text

/-- What is read at the head of a text. -/
structure Lexeme where
  /-- What the lexeme is. -/
  kind : Kind
  /-- The text it stands for. -/
  text : List Char
  /-- The number of characters it takes up. -/
  len : Nat
deriving Repr

/-- A failed reading at the head of a text. -/
structure Misread where
  /-- What is wrong. -/
  cause : LexicalCause
  /-- The characters at fault, counted from the head of the text. -/
  span : Span
  /-- The number of characters read before the fault was noticed. -/
  consumed : Nat
deriving Repr

namespace Lexeme

/-! ## Delimiters and operators -/

/-- The kinds with a fixed spelling.  Of two spellings where one begins with the other, the longer
one stands first. -/
def spelled : List Kind :=
  [.leftParen, .rightParen, .leftBracket, .rightBracket, .and, .or,
    .operator (.compare .eq), .operator (.member false),
    .operator (.compare .ge), .operator (.compare .gt),
    .operator (.compare .le), .operator (.compare .lt),
    .operator (.like false true), .operator (.like false false),
    .operator (.regex false true), .operator (.regex false false),
    .operator (.compare .ne), .operator (.member true),
    .operator (.like true true), .operator (.like true false),
    .operator (.regex true true), .operator (.regex true false)]

/-- The kind with a fixed spelling that a text begins with, the longest one if there are
several. -/
def spelled? (cs : List Char) : Option Kind :=
  spelled.find? fun k => k.symbol.toList.isPrefixOf cs

/-- Read a delimiter or an operator.  A connective must not be doubled. -/
def readSpelled (c : Char) (r : List Char) : Except Misread Lexeme :=
  if c = '&' ∧ r.head? = some '&' then .error ⟨.doubledAnd, ⟨0, 2⟩, 0⟩
  else if c = '|' ∧ r.head? = some '|' then .error ⟨.doubledOr, ⟨0, 2⟩, 0⟩
  else
    match spelled? (c :: r) with
    | some k => .ok ⟨k, k.symbol.toList, k.symbol.length⟩
    | none =>
      if c = '!' then .error ⟨.bareNegation, ⟨0, 1⟩, 0⟩
      else .error ⟨.unexpectedChar c, ⟨0, 1⟩, 0⟩

/-! ## Strings -/

/-- The delimiters of strings. -/
def isQuote (c : Char) : Bool := c = '"' || c = '\'' || c = '/'

/-- The content of a string from behind its opening delimiter, and what follows the closing one.
A backslash before the delimiter stands for the delimiter. -/
def quotedBody (quote : Char) : List Char → Option (List Char × List Char)
  | [] => none
  | [c] => if c = quote then some ([], []) else none
  | c :: d :: r =>
    if c = '\\' ∧ d = quote then (quotedBody quote r).map fun p => (quote :: p.1, p.2)
    else if c = quote then some ([], d :: r)
    else (quotedBody quote (d :: r)).map fun p => (c :: p.1, p.2)

/-- Read a string, whose opening delimiter is given. -/
def readQuoted (quote : Char) (r : List Char) : Except Misread Lexeme :=
  match quotedBody quote r with
  | some (content, rest) => .ok ⟨.string, content, r.length + 1 - rest.length⟩
  | none => .error ⟨.unterminatedString, ⟨0, r.length + 1⟩, r.length + 1⟩

/-! ## Numbers -/

/-- Read the digits of a number and its fraction; the characters before them are given. -/
def readDigits (sign cs : List Char) : Except Misread Lexeme :=
  let whole := sign ++ cs.takeWhile Char.isDigit
  match cs.dropWhile Char.isDigit with
  | '.' :: r =>
    let fraction := r.takeWhile Char.isDigit
    if fraction.isEmpty then
      .error ⟨.digitAfterPoint, ⟨0, whole.length + 1⟩, whole.length⟩
    else
      let text := whole ++ '.' :: fraction
      .ok ⟨.number, text, text.length⟩
  | _ => .ok ⟨.number, whole, whole.length⟩

/-- Read a number, whose first character is given: a minus sign or a digit. -/
def readNumber (c : Char) (r : List Char) : Except Misread Lexeme :=
  if c = '-' then
    match r with
    | d :: _ =>
      if d.isDigit then readDigits ['-'] r else .error ⟨.digitAfterMinus, ⟨0, 1⟩, 1⟩
    | [] => .error ⟨.digitAfterMinus, ⟨0, 1⟩, 1⟩
  else readDigits [] (c :: r)

/-! ## Names -/

/-- The characters that stand for any member or element behind the last dot of a name. -/
def isWildcard (c : Char) : Bool := c = '*' || c = '?'

/-- What may follow a dot in a name: the first character of a segment, or a wildcard. -/
def isSegmentStart (c : Char) : Bool := isAlnum c || c = '_' || isWildcard c

/-- The length of the name that a text begins with, given how many of its characters are read
already and whether the last of them is a dot. -/
def nameLength (read : Nat) (afterDot : Bool) : List Char → Except Misread Nat
  | [] => .ok read
  | c :: r =>
    if isNameChar c then nameLength (read + 1) false r
    else if c = '.' then
      if r.head? = some '.' then .error ⟨.doubleDot, ⟨read, 2⟩, read⟩
      else if r.head?.any isSegmentStart then nameLength (read + 1) true r
      else .error ⟨.danglingDot, ⟨0, read + 1⟩, read⟩
    else if isWildcard c then
      if !afterDot then .error ⟨.misplacedWildcard, ⟨read, 1⟩, read⟩
      else if r.head?.any fun d => isNameChar d || d = '.' || isWildcard d then
        .error ⟨.wildcardNotLast, ⟨0, read + 2⟩, read + 1⟩
      else nameLength (read + 1) false r
    else .ok read

/-- Whether a name is the given word, perhaps with segments behind it. -/
def hasFirstSegment (word : String) (name : List Char) : Bool :=
  name = word.toList || (word.toList ++ ['.']).isPrefixOf name

/-- The kind of a name: a reserved word, the path, the full text index, a builtin, or else a
content field. -/
def classify (b : Builtins) (name : List Char) : Kind :=
  if name = "true".toList ∨ name = "false".toList then .boolean
  else if name = "null".toList then .null
  else if name = "now".toList then .keyword
  else if hasFirstSegment "path" name then .path
  else if hasFirstSegment "fulltext" name then .fulltext
  else if b.contains (String.ofList name) then .builtin
  else .field

/-- Read a name. -/
def readName (b : Builtins) (cs : List Char) : Except Misread Lexeme :=
  (nameLength 0 false cs).map fun n => ⟨classify b (cs.take n), cs.take n, n⟩

/-! ## All forms -/

/-- Read the lexeme at the head of a text that begins with the given character. -/
def read (b : Builtins) (c : Char) (r : List Char) : Except Misread Lexeme :=
  if isQuote c then readQuoted c r
  else if c = '-' || c.isDigit then readNumber c r
  else if isLetter c then readName b (c :: r)
  else readSpelled c r

/-! ## Every lexeme takes up at least one character -/

theorem symbol_length_pos {k : Kind} (h : k ∈ spelled) : 0 < k.symbol.length := by
  revert k
  decide

theorem readSpelled_len_pos {c : Char} {r : List Char} {l : Lexeme}
    (h : readSpelled c r = .ok l) : 0 < l.len := by
  unfold readSpelled at h
  split at h
  · simp at h
  · split at h
    · simp at h
    · split at h
      · next k hk =>
        obtain rfl := Except.ok.inj h
        exact symbol_length_pos (List.mem_of_find?_eq_some hk)
      · split at h <;> simp at h

theorem length_quotedBody_lt {quote : Char} {cs : List Char} {p : List Char × List Char}
    (h : quotedBody quote cs = some p) : p.2.length < cs.length := by
  fun_induction quotedBody quote cs generalizing p with
  | case1 => simp at h
  | case2 => obtain rfl := Option.some.inj h; simp
  | case3 => simp at h
  | case4 c d r hc ih =>
    obtain ⟨q, hq, rfl⟩ := Option.map_eq_some_iff.1 h
    have := ih hq
    simp only [List.length_cons]
    omega
  | case5 => obtain rfl := Option.some.inj h; simp
  | case6 c d r hc hd ih =>
    obtain ⟨q, hq, rfl⟩ := Option.map_eq_some_iff.1 h
    have := ih hq
    simp only [List.length_cons] at this ⊢
    omega

theorem readQuoted_len_pos {quote : Char} {r : List Char} {l : Lexeme}
    (h : readQuoted quote r = .ok l) : 0 < l.len := by
  unfold readQuoted at h
  split at h
  · next content rest hb =>
    obtain rfl := Except.ok.inj h
    have := length_quotedBody_lt hb
    simp only at this ⊢
    omega
  · simp at h

theorem readDigits_len_pos {sign : List Char} {cs : List Char} {l : Lexeme}
    (hs : sign ≠ [] ∨ cs.head?.any Char.isDigit) (h : readDigits sign cs = .ok l) :
    0 < l.len := by
  have hw : 0 < (sign ++ cs.takeWhile Char.isDigit).length := by
    rcases hs with hs | hs
    · have := List.length_pos_iff.2 hs
      simp only [List.length_append]
      omega
    · cases cs with
      | nil => simp at hs
      | cons d r =>
        have hd : d.isDigit = true := by simpa using hs
        rw [List.takeWhile_cons_of_pos hd, List.length_append, List.length_cons]
        omega
  unfold readDigits at h
  simp only at h
  split at h
  · split at h
    · simp at h
    · obtain rfl := Except.ok.inj h
      simp only [List.length_append] at hw ⊢
      omega
  · obtain rfl := Except.ok.inj h
    exact hw

theorem readNumber_len_pos {c : Char} {r : List Char} {l : Lexeme}
    (hc : (c = '-' || c.isDigit) = true) (h : readNumber c r = .ok l) : 0 < l.len := by
  unfold readNumber at h
  split at h
  · split at h
    · split at h
      · exact readDigits_len_pos (.inl (by simp)) h
      · simp at h
    · simp at h
  · next hne =>
    refine readDigits_len_pos (.inr ?_) h
    simpa [hne] using hc

theorem le_nameLength {read : Nat} {afterDot : Bool} {cs : List Char} {n : Nat}
    (h : nameLength read afterDot cs = .ok n) : read ≤ n := by
  fun_induction nameLength read afterDot cs with
  | case1 => exact Nat.le_of_eq (Except.ok.inj h)
  | case2 _ _ _ _ _ ih => exact Nat.le_of_succ_le (ih h)
  | case3 => simp at h
  | case4 _ _ _ _ _ _ ih => exact Nat.le_of_succ_le (ih h)
  | case5 => simp at h
  | case6 => simp at h
  | case7 => simp at h
  | case8 _ _ _ _ _ _ _ _ _ ih => exact Nat.le_of_succ_le (ih h)
  | case9 => exact Nat.le_of_eq (Except.ok.inj h)

theorem readName_len_pos {b : Builtins} {c : Char} {r : List Char} {l : Lexeme}
    (hc : isLetter c = true) (h : readName b (c :: r) = .ok l) : 0 < l.len := by
  unfold readName at h
  have hn : isNameChar c = true := by simp [isNameChar, isAlnum, hc]
  rw [nameLength, if_pos hn] at h
  cases hl : nameLength (0 + 1) false r with
  | error e => rw [hl] at h; simp [Except.map] at h
  | ok n =>
    rw [hl] at h
    obtain rfl := Except.ok.inj h
    have := le_nameLength hl
    simp only
    omega

/-- A lexeme takes up at least one character. -/
theorem read_len_pos {b : Builtins} {c : Char} {r : List Char} {l : Lexeme}
    (h : read b c r = .ok l) : 0 < l.len := by
  unfold read at h
  split at h
  · exact readQuoted_len_pos h
  · split at h
    · next hc => exact readNumber_len_pos hc h
    · split at h
      · next hc => exact readName_len_pos hc h
      · exact readSpelled_len_pos h

end Lexeme
end ContentFilter
