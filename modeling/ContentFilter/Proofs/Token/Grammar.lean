import ContentFilter.Proofs.Outcome
import ContentFilter.Token.Lexeme
import Mathlib.Data.List.TakeWhile
import Mathlib.Tactic.SplitIfs
/-!
# The grammar of lexemes

What a lexeme may be, said without reading it.  A delimiter, a connective and an operator are
their spellings, a number and a name are given by their grammars (`Number`, `Name`), and a string
is what stands between two of its delimiters if every delimiter inside directly follows a
backslash and the last one does not (`Quoted`).  Some forms also look at what follows: operators
and numbers are the longest possible, a name must not be followed by what could go on with a name,
and a connective must not be doubled.  `Begins` puts these together, with the actual rest of the
text at hand, so that no composition can split a lexeme.

Reading a lexeme gives just what the grammar says (`begins_of_read`, `Begins.read`), but for the
number before a point that no digit follows: there the reading is refused, while the grammar takes
the number and leaves the point, which begins no lexeme.
-/

namespace ContentFilter
namespace Lexeme

open Text

/-! ## The grammar -/

/-- One digit or more. -/
def Digits (ds : List Char) : Prop := ds ≠ [] ∧ ∀ d ∈ ds, d.isDigit = true

/-- Digits, perhaps with a point and more digits behind them. -/
inductive Unsigned : List Char → Prop
  | whole {ds : List Char} : Digits ds → Unsigned ds
  | fraction {ds es : List Char} : Digits ds → Digits es → Unsigned (ds ++ '.' :: es)

/-- An unsigned number, perhaps behind a minus sign. -/
inductive Number : List Char → Prop
  | positive {w : List Char} : Unsigned w → Number w
  | negative {w : List Char} : Unsigned w → Number ('-' :: w)

/-- What may follow the first letter of a name: name characters, then segments, each of them a dot
with a letter, a numeral or an underscore and more name characters behind it, and at the end
perhaps a dot and a wildcard. -/
inductive NameTail : List Char → Prop
  | nil : NameTail []
  | char {c : Char} {cs : List Char} : isNameChar c = true → NameTail cs → NameTail (c :: cs)
  | segment {c : Char} {cs : List Char} :
      isAlnum c = true ∨ c = '_' → NameTail cs → NameTail ('.' :: c :: cs)
  | wildcard {c : Char} : isWildcard c = true → NameTail ['.', c]

/-- A letter with the tail of a name. -/
inductive Name : List Char → Prop
  | letter {c : Char} {cs : List Char} : isLetter c = true → NameTail cs → Name (c :: cs)

/-- The text does not begin with a character that a name before it could go on with. -/
def EndsName (rest : List Char) : Prop :=
  ∀ c ∈ rest.head?, isNameChar c = false ∧ c ≠ '.' ∧ isWildcard c = false

/-- The text between two delimiters of a string: the closing delimiter is the first one that does
not directly follow a backslash. -/
structure Quoted (quote : Char) (body : List Char) : Prop where
  /-- Every delimiter inside directly follows a backslash. -/
  inside : ∀ before behind, body = before ++ quote :: behind → before.getLast? = some '\\'
  /-- The closing delimiter does not. -/
  closing : body.getLast? ≠ some '\\'

/-- A text without the backslashes that stand directly before a delimiter. -/
def unescape (quote : Char) : List Char → List Char
  | [] => []
  | [c] => [c]
  | c :: d :: r =>
    if c = '\\' ∧ d = quote then quote :: unescape quote r else c :: unescape quote (d :: r)

/-- Nothing longer of the given form stands at the head of a text. -/
def Longest (form : List Char → Prop) (word rest : List Char) : Prop :=
  ∀ w, form w → w <+: word ++ rest → w.length ≤ word.length

/-- The spellings of operators. -/
def IsOperator (w : List Char) : Prop := ∃ o : Operator, w = o.symbol.toList

/-- The lexemes a text may begin with: the word, what follows it, its kind, and the text it stands
for. -/
inductive Begins (b : Builtins) : List Char → List Char → Kind → List Char → Prop
  | delimiter {k : Kind} {rest : List Char} :
      k ∈ [Kind.leftParen, .rightParen, .leftBracket, .rightBracket] →
      Begins b k.symbol.toList rest k k.symbol.toList
  | connective {k : Kind} {rest : List Char} :
      k ∈ [Kind.and, .or] → rest.head? ≠ k.symbol.toList.head? →
      Begins b k.symbol.toList rest k k.symbol.toList
  | operator {o : Operator} {rest : List Char} :
      Longest IsOperator o.symbol.toList rest →
      Begins b o.symbol.toList rest (.operator o) o.symbol.toList
  | number {word rest : List Char} :
      Number word → Longest Number word rest → Begins b word rest .number word
  | name {word rest : List Char} :
      Name word → EndsName rest → Begins b word rest (classify b word) word
  | string {quote : Char} {body rest : List Char} :
      isQuote quote = true → Quoted quote body →
      Begins b (quote :: (body ++ [quote])) rest .string (unescape quote body)

/-! ## First characters -/

lemma isLetter_of_isDigit {c : Char} (h : c.isDigit = true) : isLetter c = false := by
  have hdigit : '0'.val ≤ c.val ∧ c.val ≤ '9'.val := by simpa [Char.isDigit] using h
  have halpha : c.isAlpha = (decide ('A'.val ≤ c.val ∧ c.val ≤ 'Z'.val) ||
      decide ('a'.val ≤ c.val) && decide (c.val ≤ 'z'.val)) := rfl
  have hc : c.toNat < 0x80 ∧ ¬c.isAlpha = true := by
    simp only [halpha, Char.toNat, Bool.and_eq_true, decide_eq_true_eq, Bool.or_eq_true,
      UInt32.le_iff_toNat_le] at hdigit ⊢
    have h0 : '0'.val.toNat = 48 := rfl
    have h9 : '9'.val.toNat = 57 := rfl
    have hA : 'A'.val.toNat = 65 := rfl
    have ha : 'a'.val.toNat = 97 := rfl
    omega
  simp [isLetter, hc]

lemma not_isDigit_of_isQuote {c : Char} (h : isQuote c = true) : c.isDigit = false := by
  simp only [isQuote, Bool.or_eq_true, decide_eq_true_eq] at h
  rcases h with (rfl | rfl) | rfl <;> decide

lemma not_isLetter_of_isQuote {c : Char} (h : isQuote c = true) : isLetter c = false := by
  simp only [isQuote, Bool.or_eq_true, decide_eq_true_eq] at h
  rcases h with (rfl | rfl) | rfl <;> decide

lemma ne_backslash_of_isQuote {c : Char} (h : isQuote c = true) : c ≠ '\\' := by
  rintro rfl
  revert h
  decide

/-- The code points of the blanks. -/
def blankCodes : List Nat :=
  [0x09, 0x0A, 0x0B, 0x0C, 0x0D, 0x20, 0x85, 0xA0, 0x1680, 0x2000, 0x2001, 0x2002, 0x2003, 0x2004,
    0x2005, 0x2006, 0x2007, 0x2008, 0x2009, 0x200A, 0x2028, 0x2029, 0x202F, 0x205F, 0x3000]

lemma mem_blankCodes {c : Char} (h : isBlank c = true) : c.toNat ∈ blankCodes := by
  simp only [isBlank, Bool.or_eq_true, Bool.and_eq_true, decide_eq_true_eq] at h
  simp only [blankCodes, List.mem_cons, List.not_mem_nil, or_false]
  omega

/-- No letter, no digit and no minus sign is a blank. -/
lemma not_isBlank {c : Char} (h : isLetter c = true ∨ c = '-' ∨ c.isDigit = true) :
    isBlank c = false := by
  have hall : blankCodes.all fun n =>
      !(isLetter (Char.ofNat n) || Char.ofNat n = '-' || (Char.ofNat n).isDigit) := by
    decide +kernel
  by_contra hb
  have hnot := List.all_eq_true.1 hall _ (mem_blankCodes (by simpa using hb))
  rw [Char.ofNat_toNat] at hnot
  simp_all

lemma read_of_isQuote {b : Builtins} {c : Char} {r : List Char} (h : isQuote c = true) :
    read b c r = readQuoted c r := by
  rw [read, if_pos h]

lemma read_of_number {b : Builtins} {c : Char} {r : List Char} (h : c = '-' ∨ c.isDigit = true) :
    read b c r = readNumber c r := by
  have hq : ¬isQuote c = true := by
    intro hq
    rcases h with rfl | h
    · revert hq
      decide
    · rw [not_isDigit_of_isQuote hq] at h
      cases h
  rw [read, if_neg hq, if_pos (by simpa using h)]

lemma read_of_isLetter {b : Builtins} {c : Char} {r : List Char} (h : isLetter c = true) :
    read b c r = readName b (c :: r) := by
  have hq : ¬isQuote c = true := by
    intro hq
    rw [not_isLetter_of_isQuote hq] at h
    cases h
  have hn : ¬(c = '-' || c.isDigit) = true := by
    simp only [Bool.or_eq_true, decide_eq_true_eq, not_or]
    refine ⟨?_, fun hd => ?_⟩
    · rintro rfl
      revert h
      decide
    · rw [isLetter_of_isDigit hd] at h
      cases h
  rw [read, if_neg hq, if_neg hn, if_pos h]

/-! ## Delimiters and operators -/

lemma mem_spelled {k : Kind} (h : k.group ≠ .operand) : k ∈ spelled := by
  cases k with
  | operator o =>
    match o with
    | .compare r => cases r <;> decide
    | .like n c => cases n <;> cases c <;> decide
    | .regex n c => cases n <;> cases c <;> decide
    | .member n => cases n <;> decide
  | _ => first | decide | exact absurd rfl h

/-- The first character of a spelling is not that of another form. -/
lemma head_symbol {k : Kind} (h : k ∈ spelled) :
    ∃ c r, k.symbol.toList = c :: r ∧ isQuote c = false ∧ (c = '-' || c.isDigit) = false ∧
      isLetter c = false ∧ isBlank c = false ∧ c ≠ ',' ∧ c ≠ '.' := by
  have hall : spelled.all fun k => k.symbol.toList.head?.any fun c =>
      !isQuote c && !(c = '-' || c.isDigit) && !isLetter c && !isBlank c && c ≠ ',' &&
        c ≠ '.' := by decide
  obtain ⟨c, hc, hplain⟩ := (Option.any_eq_true _ _).1 (List.all_eq_true.1 hall k h)
  obtain ⟨r, hr⟩ := List.head?_eq_some_iff.1 hc
  exact ⟨c, r, hr, by simpa [and_assoc] using hplain⟩

/-- Of two spellings in the list the earlier one does not begin the later one. -/
lemma pairwise_spelled :
    spelled.Pairwise fun j k => ¬j.symbol.toList <+: k.symbol.toList := by
  decide

lemma symbol_injOn {j k : Kind} (hj : j ∈ spelled) (hk : k ∈ spelled)
    (h : j.symbol.toList = k.symbol.toList) : j = k := by
  have hall : spelled.all fun j => spelled.all fun k =>
      j.symbol.toList = k.symbol.toList → j = k := by decide
  have := List.all_eq_true.1 (List.all_eq_true.1 hall j hj) k hk
  simpa [h] using this

/-- A spelling that begins like a delimiter or a connective is that one. -/
lemma eq_of_head_eq {j k : Kind} (hj : j ∈ spelled) (hk : k ∈ spelled)
    (h : j.symbol.toList.head? = k.symbol.toList.head?) (hg : k.group ≠ .operator) : j = k := by
  have hall : spelled.all fun j => spelled.all fun k =>
      j.symbol.toList.head? = k.symbol.toList.head? → k.group ≠ .operator → j = k := by decide
  have := List.all_eq_true.1 (List.all_eq_true.1 hall j hj) k hk
  simpa [h, hg] using this

/-- The kind that is found is the one with the longest spelling. -/
lemma spelled?_eq_some_iff {cs : List Char} {k : Kind} :
    spelled? cs = some k ↔ k ∈ spelled ∧ k.symbol.toList <+: cs ∧
      ∀ j ∈ spelled, j.symbol.toList <+: cs → j.symbol.toList.length ≤ k.symbol.toList.length := by
  have sound : ∀ {k : Kind}, spelled? cs = some k → k ∈ spelled ∧ k.symbol.toList <+: cs ∧
      ∀ j ∈ spelled, j.symbol.toList <+: cs →
        j.symbol.toList.length ≤ k.symbol.toList.length := by
    intro k h
    obtain ⟨hp, as, bs, hsplit, has⟩ := List.find?_eq_some_iff_append.1 h
    have hk : k.symbol.toList <+: cs := List.isPrefixOf_iff_prefix.1 hp
    refine ⟨List.mem_of_find?_eq_some h, hk, fun j hj hjcs => ?_⟩
    rw [hsplit, List.mem_append, List.mem_cons] at hj
    rcases hj with hj | rfl | hj
    · have hnot := has j hj
      rw [Bool.not_eq_true', ← Bool.not_eq_true, List.isPrefixOf_iff_prefix] at hnot
      exact absurd hjcs hnot
    · exact Nat.le_refl _
    · -- the spellings fit the same text, so one begins the other, and it is not the earlier one
      have hpair := pairwise_spelled
      rw [hsplit, List.pairwise_append] at hpair
      have hnot := (List.pairwise_cons.1 hpair.2.1).1 j hj
      exact ((List.prefix_or_prefix_of_prefix hk hjcs).resolve_left hnot).length_le
  refine ⟨sound, fun ⟨hk, hcs, hmax⟩ => ?_⟩
  have hsome : (spelled? cs).isSome := by
    rw [spelled?, List.find?_isSome]
    exact ⟨k, hk, List.isPrefixOf_iff_prefix.2 hcs⟩
  obtain ⟨j, hj⟩ := Option.isSome_iff_exists.1 hsome
  obtain ⟨hjmem, hjcs, hjmax⟩ := sound hj
  have hlen := Nat.le_antisymm (hmax j hjmem hjcs) (hjmax k hk hcs)
  have heq : j.symbol.toList = k.symbol.toList :=
    (List.prefix_of_prefix_length_le hjcs hcs hlen.le).eq_of_length hlen
  rw [hj, symbol_injOn hjmem hk heq]

/-- Spellings at the head of one text begin with the same character. -/
lemma head_eq_of_prefix {j k : Kind} {cs : List Char} (hj : j ∈ spelled) (hk : k ∈ spelled)
    (hjcs : j.symbol.toList <+: cs) (hkcs : k.symbol.toList <+: cs) :
    j.symbol.toList.head? = k.symbol.toList.head? := by
  obtain ⟨c, r, hc, -⟩ := head_symbol hj
  obtain ⟨d, s, hd, -⟩ := head_symbol hk
  rw [hc] at hjcs ⊢
  rw [hd] at hkcs ⊢
  obtain ⟨_, rfl⟩ := hjcs
  obtain ⟨_, h⟩ := hkcs
  simp only [List.cons_append, List.cons.injEq] at h
  simp [h.1]

lemma longest_iff {k : Kind} {rest : List Char} (hk : k ∈ spelled) :
    spelled? (k.symbol.toList ++ rest) = some k ↔
      k.group ≠ .operator ∨ Longest IsOperator k.symbol.toList rest := by
  rw [spelled?_eq_some_iff]
  refine ⟨fun ⟨_, _, hmax⟩ => .inr ?_, fun h => ⟨hk, List.prefix_append _ _, fun j hj hjcs => ?_⟩⟩
  · rintro _ ⟨o, rfl⟩ ho
    exact hmax (.operator o) (mem_spelled (by simp [Kind.group])) ho
  · have hhead := head_eq_of_prefix hj hk hjcs (List.prefix_append _ _)
    rcases h with hg | hmax
    · rw [eq_of_head_eq hj hk hhead hg]
    · cases j with
      | operator o => exact hmax _ ⟨o, rfl⟩ hjcs
      | _ => rw [eq_of_head_eq hk hj hhead.symm (by simp [Kind.group])]

/-! ## Numbers -/

lemma digits_takeWhile {cs : List Char} (h : cs.head?.any Char.isDigit = true) :
    Digits (cs.takeWhile Char.isDigit) := by
  cases cs with
  | nil => simp at h
  | cons c r => exact ⟨by simpa using h, fun _ hd => List.mem_takeWhile_imp hd⟩

lemma prefix_takeWhile {ds cs : List Char} (h : Digits ds) (hp : ds <+: cs) :
    ds <+: cs.takeWhile Char.isDigit := by
  obtain ⟨t, rfl⟩ := hp
  rw [List.takeWhile_append_of_pos h.2]
  exact List.prefix_append _ _

/-- Digits before a point are all the digits there are. -/
lemma split_of_point {ds es cs : List Char} (h : Digits ds) (hp : ds ++ '.' :: es <+: cs) :
    cs.takeWhile Char.isDigit = ds ∧ '.' :: es <+: cs.dropWhile Char.isDigit := by
  obtain ⟨t, rfl⟩ := hp
  rw [List.append_assoc, List.takeWhile_append_of_pos h.2, List.dropWhile_append_of_pos h.2]
  simp [show Char.isDigit '.' = false by decide]

lemma Unsigned.head {w : List Char} (h : Unsigned w) : w.head?.any Char.isDigit = true := by
  have hdigits : ∀ {ds r : List Char}, Digits ds → (ds ++ r).head?.any Char.isDigit = true := by
    intro ds r hd
    cases ds with
    | nil => exact absurd rfl hd.1
    | cons d ds => simpa using hd.2 d List.mem_cons_self
  cases h with
  | whole hd => simpa using hdigits (r := []) hd
  | fraction hd _ => exact hdigits hd

lemma not_unsigned_minus (w : List Char) : ¬Unsigned ('-' :: w) := by
  intro h
  have hdigit := h.head
  simp [show Char.isDigit '-' = false by decide] at hdigit

lemma not_unsigned_nil : ¬Unsigned [] := by
  intro h
  simpa using h.head

/-- The longest unsigned number at the head of a text that begins with a digit; reading the digits
gives it, unless a point follows. -/
lemma readDigits_cases (sign : List Char) {cs : List Char}
    (h : cs.head?.any Char.isDigit = true) :
    ∃ word rest, cs = word ++ rest ∧ Unsigned word ∧ Longest Unsigned word rest ∧
      (readDigits sign cs = .ok ⟨.number, sign ++ word, (sign ++ word).length⟩ ∨
        rest.head? = some '.' ∧ ∃ m, readDigits sign cs = .error m) := by
  have hdigits := digits_takeWhile h
  have hsplit := (List.takeWhile_append_dropWhile (p := Char.isDigit) (l := cs)).symm
  generalize hds : cs.takeWhile Char.isDigit = ds at hdigits hsplit
  generalize hrest : cs.dropWhile Char.isDigit = rest at hsplit
  -- without a fraction, the digits are the longest number
  have hwhole : (∀ es, Digits es → ¬ '.' :: es <+: rest) → Longest Unsigned ds rest := by
    rintro hnone w (⟨hd⟩ | ⟨hd, he⟩) hp
    · rw [← hsplit] at hp
      exact hds ▸ (prefix_takeWhile hd hp).length_le
    · rw [← hsplit] at hp
      exact absurd (hrest ▸ (split_of_point hd hp).2) (hnone _ he)
  unfold readDigits
  simp only [hds, hrest]
  split
  · next r =>
    by_cases hr : (r.takeWhile Char.isDigit).isEmpty = true
    · refine ⟨ds, '.' :: r, hsplit, .whole hdigits, hwhole fun es he hp => ?_, .inr ⟨rfl, ?_⟩⟩
      · have := prefix_takeWhile he (List.cons_prefix_cons.1 hp).2
        rw [List.isEmpty_iff.1 hr, List.prefix_nil] at this
        exact he.1 this
      · rw [if_pos hr]
        exact ⟨_, rfl⟩
    · have hfraction : Digits (r.takeWhile Char.isDigit) :=
        ⟨by simpa using hr, fun _ hd => List.mem_takeWhile_imp hd⟩
      refine ⟨ds ++ '.' :: r.takeWhile Char.isDigit, r.dropWhile Char.isDigit, ?_,
        .fraction hdigits hfraction, ?_, .inl ?_⟩
      · rw [List.append_assoc, List.cons_append, List.takeWhile_append_dropWhile, ← hsplit]
      · rw [Longest, List.append_assoc, List.cons_append, List.takeWhile_append_dropWhile,
          ← hsplit]
        rintro w (⟨hd⟩ | ⟨hd, he⟩) hp
        · have := (hds ▸ prefix_takeWhile hd hp).length_le
          simp only [List.length_append]
          omega
        · obtain ⟨hw, hp⟩ := split_of_point hd hp
          rw [hds] at hw
          rw [hrest] at hp
          have := (prefix_takeWhile he (List.cons_prefix_cons.1 hp).2).length_le
          simp only [hw, List.length_append, List.length_cons]
          omega
      · rw [if_neg hr, List.append_assoc]
  · next hnot =>
    refine ⟨ds, rest, hsplit, .whole hdigits, hwhole fun es _ hp => ?_, .inl rfl⟩
    obtain ⟨t, rfl⟩ := hp
    exact hnot _ rfl

lemma Number.head {w : List Char} (h : Number w) :
    w.head?.any (fun c => c = '-' || c.isDigit) = true := by
  cases h with
  | positive h =>
    cases w with
    | nil => simpa using h.head
    | cons c r => simpa using Or.inr (by simpa using h.head)
  | negative => simp

lemma Longest.positive {word rest : List Char} (hw : Unsigned word)
    (h : Longest Unsigned word rest) : Longest Number word rest := by
  rintro w (hw' | hw') hp
  · exact h w hw' hp
  · cases word with
    | nil => exact absurd hw not_unsigned_nil
    | cons c r =>
      obtain rfl := (List.cons_prefix_cons.1 hp).1
      exact absurd hw (not_unsigned_minus r)

lemma Longest.negative {word rest : List Char} (h : Longest Unsigned word rest) :
    Longest Number ('-' :: word) rest := by
  rintro w (hw | @⟨w, hw⟩) hp
  · cases w with
    | nil => simp
    | cons c r =>
      obtain rfl := (List.cons_prefix_cons.1 hp).1
      exact absurd hw (not_unsigned_minus r)
  · simpa using h w hw (List.cons_prefix_cons.1 hp).2

/-- A minus sign that no digit follows begins no number. -/
lemma not_prefix_of_minus {r : List Char} (h : ¬r.head?.any Char.isDigit = true) :
    ∀ w, Number w → ¬w <+: '-' :: r := by
  rintro w (hw | @⟨w, hw⟩) hp
  · cases w with
    | nil => exact not_unsigned_nil hw
    | cons d s =>
      obtain rfl := (List.cons_prefix_cons.1 hp).1
      exact not_unsigned_minus s hw
  · obtain ⟨t, rfl⟩ := (List.cons_prefix_cons.1 hp).2
    cases w with
    | nil => exact not_unsigned_nil hw
    | cons d s => exact h (by simpa using hw.head)

/-- The longest number at the head of a text; reading gives it, unless a point follows or there is
none. -/
lemma readNumber_cases {c : Char} {r : List Char} (h : c = '-' ∨ c.isDigit = true) :
    (∃ word rest, c :: r = word ++ rest ∧ Number word ∧ Longest Number word rest ∧
      (readNumber c r = .ok ⟨.number, word, word.length⟩ ∨
        rest.head? = some '.' ∧ ∃ m, readNumber c r = .error m)) ∨
    (∀ w, Number w → ¬w <+: c :: r) ∧ ∃ m, readNumber c r = .error m := by
  by_cases hc : c = '-'
  · subst hc
    by_cases hr : r.head?.any Char.isDigit = true
    · obtain ⟨word, rest, hsplit, hw, hlong, hread⟩ := readDigits_cases ['-'] hr
      refine .inl ⟨'-' :: word, rest, by rw [hsplit, List.cons_append], .negative hw,
        hlong.negative, ?_⟩
      cases r with
      | nil => simp at hr
      | cons d s =>
        have hd : d.isDigit = true := by simpa using hr
        simpa [readNumber, hd] using hread
    · refine .inr ⟨not_prefix_of_minus hr, ?_⟩
      cases r with
      | nil => exact ⟨_, rfl⟩
      | cons d s =>
        have hd : ¬d.isDigit = true := by simpa using hr
        exact ⟨⟨.digitAfterMinus, ⟨0, 1⟩, 1⟩, by simp [readNumber, hd]⟩
  · have hd := h.resolve_left hc
    obtain ⟨word, rest, hsplit, hw, hlong, hread⟩ := readDigits_cases []
      (by simpa : (c :: r).head?.any Char.isDigit = true)
    refine .inl ⟨word, rest, hsplit, .positive hw, hlong.positive hw, ?_⟩
    simpa [readNumber, hc] using hread

/-! ## Names -/

lemma isNameChar_of_segment {c : Char} (h : isAlnum c = true ∨ c = '_') :
    isNameChar c = true := by
  rcases h with h | rfl
  · simp [isNameChar, h]
  · decide

lemma isSegmentStart_iff {c : Char} :
    isSegmentStart c = true ↔ (isAlnum c = true ∨ c = '_') ∨ isWildcard c = true := by
  simp [isSegmentStart]

lemma not_isNameChar_of_isWildcard {c : Char} (h : isWildcard c = true) :
    isNameChar c = false ∧ c ≠ '.' := by
  simp only [isWildcard, Bool.or_eq_true, decide_eq_true_eq] at h
  rcases h with rfl | rfl <;> decide

section

variable {n : Nat} {a : Bool} {c : Char} {r : List Char}

lemma nameLength_char (h : isNameChar c = true) :
    nameLength n a (c :: r) = nameLength (n + 1) false r := by
  rw [nameLength, if_pos h]

lemma nameLength_point (h : r.head?.any isSegmentStart = true) :
    nameLength n a ('.' :: r) = nameLength (n + 1) true r := by
  have hdouble : ¬r.head? = some '.' := by
    intro hr
    rw [hr] at h
    revert h
    decide
  rw [nameLength, if_neg (by decide), if_pos rfl, if_neg hdouble, if_pos h]

lemma nameLength_of_endsName {cs : List Char} (h : EndsName cs) : nameLength n a cs = .ok n := by
  cases cs with
  | nil => rfl
  | cons c r =>
    obtain ⟨hn, hd, hw⟩ := h c rfl
    rw [nameLength, if_neg (by simp [hn]), if_neg hd, if_neg (by simp [hw])]

lemma endsName_iff {cs : List Char} :
    EndsName cs ↔ ¬cs.head?.any (fun d => isNameChar d || d = '.' || isWildcard d) = true := by
  cases cs with
  | nil => simp [EndsName]
  | cons c r => simp [EndsName, and_assoc]

end

/-- The tail of a name is read to its end. -/
lemma NameTail.nameLength {cs : List Char} (h : NameTail cs) {rest : List Char}
    (hrest : EndsName rest) (n : Nat) : nameLength n false (cs ++ rest) = .ok (n + cs.length) := by
  induction h generalizing n with
  | nil => exact nameLength_of_endsName hrest
  | char hc _ ih =>
    rw [List.cons_append, nameLength_char hc, ih, List.length_cons]
    congr 1
    omega
  | segment hc _ ih =>
    rw [List.cons_append, List.cons_append,
      nameLength_point (by simpa using isSegmentStart_iff.2 (.inl hc)),
      nameLength_char (isNameChar_of_segment hc), ih, List.length_cons, List.length_cons]
    congr 1
    omega
  | wildcard hc =>
    obtain ⟨hn, hp⟩ := not_isNameChar_of_isWildcard hc
    rw [List.cons_append, nameLength_point (by simpa using isSegmentStart_iff.2 (.inr hc)),
      List.cons_append, List.nil_append, Lexeme.nameLength, if_neg (by simp [hn]), if_neg hp,
      if_pos hc, if_neg (by simp), if_neg (endsName_iff.1 hrest), nameLength_of_endsName hrest]
    rfl

/-- What is read of a name is the tail of a name, the dot before it included if there is one. -/
lemma nameTail_of_nameLength {n m : Nat} {a : Bool} {cs : List Char}
    (ha : a = true → cs.head?.any isSegmentStart = true) (h : nameLength n a cs = .ok m) :
    ∃ word rest, cs = word ++ rest ∧ m = n + word.length ∧
      NameTail (if a then '.' :: word else word) ∧ EndsName rest := by
  fun_induction Lexeme.nameLength n a cs with
  | case1 n a =>
    cases a with
    | true => simp at ha
    | false => exact ⟨[], [], rfl, (Except.ok.inj h).symm, .nil, by simp [EndsName]⟩
  | case2 n a c r hc ih =>
    obtain ⟨word, rest, rfl, rfl, htail, hends⟩ := ih (by simp) h
    refine ⟨c :: word, rest, rfl, by simp only [List.length_cons]; omega, ?_, hends⟩
    cases a with
    | false => exact .char hc htail
    | true =>
      rcases isSegmentStart_iff.1 (by simpa using ha rfl) with hstart | hwild
      · exact .segment hstart htail
      · rw [(not_isNameChar_of_isWildcard hwild).1] at hc
        cases hc
  | case3 => simp at h
  | case4 n a r _ hstart _ ih =>
    obtain ⟨word, rest, rfl, rfl, htail, hends⟩ := ih (fun _ => hstart) h
    refine ⟨'.' :: word, rest, rfl, by simp only [List.length_cons]; omega, ?_, hends⟩
    cases a with
    | false => exact htail
    | true =>
      have hpoint := ha rfl
      revert hpoint
      simp [show isSegmentStart '.' = false by decide]
  | case5 => simp at h
  | case6 => simp at h
  | case7 => simp at h
  | case8 n a c r hn hp hwild ha' hrest ih =>
    have hends := endsName_iff.2 hrest
    rw [nameLength_of_endsName hends] at h
    obtain rfl := Except.ok.inj h
    refine ⟨[c], r, rfl, rfl, ?_, hends⟩
    cases a with
    | true => exact .wildcard hwild
    | false => simp at ha'
  | case9 n a c r hn hp hwild =>
    obtain rfl := Except.ok.inj h
    cases a with
    | true =>
      rcases isSegmentStart_iff.1 (by simpa using ha rfl) with hstart | hw
      · exact absurd (isNameChar_of_segment hstart) hn
      · exact absurd hw hwild
    | false =>
      exact ⟨[], c :: r, rfl, rfl, .nil, endsName_iff.2 (by simp [hn, hp, hwild])⟩

/-! ## Strings -/

lemma Quoted.nil (quote : Char) : Quoted quote [] := ⟨by simp, by simp⟩

lemma Quoted.escaped {quote : Char} {body : List Char} (hq : quote ≠ '\\')
    (h : Quoted quote body) : Quoted quote ('\\' :: quote :: body) where
  inside := by
    intro before behind heq
    match before, heq with
    | [], heq => exact absurd (List.cons.inj heq).1.symm hq
    | [c], heq => simp [(List.cons.inj heq).1.symm]
    | c :: d :: before, heq =>
      simp only [List.cons_append, List.cons.injEq] at heq
      simp [List.getLast?_cons, h.inside before behind heq.2.2]
  closing := by
    have := h.closing
    cases body with
    | nil => simpa using hq
    | cons c r => simpa [List.getLast?_cons] using this

lemma Quoted.of_escaped {quote : Char} {body : List Char}
    (h : Quoted quote ('\\' :: quote :: body)) (hfirst : body.head? ≠ some quote) :
    Quoted quote body where
  inside := by
    intro before behind heq
    cases before with
    | nil => simp [heq] at hfirst
    | cons c before =>
      simpa [List.getLast?_cons] using
        h.inside ('\\' :: quote :: c :: before) behind (by rw [heq]; rfl)
  closing := by
    have := h.closing
    cases body with
    | nil => simp
    | cons c r => simpa [List.getLast?_cons] using this

/-- Behind an escaped delimiter no other one can stand. -/
lemma Quoted.head_ne {quote : Char} {body : List Char} (hq : quote ≠ '\\')
    (h : Quoted quote ('\\' :: quote :: body)) : body.head? ≠ some quote := by
  intro hhead
  cases body with
  | nil => simp at hhead
  | cons c r =>
    obtain rfl : c = quote := by simpa using hhead
    have := h.inside ['\\', c] r rfl
    simp [hq] at this

lemma Quoted.head_ne_quote {quote c : Char} {body : List Char} (h : Quoted quote (c :: body)) :
    c ≠ quote := by
  rintro rfl
  simpa using h.inside [] body rfl

lemma Quoted.char {quote c : Char} {body : List Char} (hc : c ≠ quote)
    (hback : c = '\\' → body ≠ []) (h : Quoted quote body) : Quoted quote (c :: body) where
  inside := by
    intro before behind heq
    cases before with
    | nil => exact absurd (List.cons.inj heq).1 hc
    | cons d before =>
      obtain ⟨-, heq⟩ := List.cons.inj heq
      simp [List.getLast?_cons, h.inside before behind heq]
  closing := by
    have := h.closing
    cases body with
    | nil =>
      simp only [List.getLast?_singleton, ne_eq, Option.some.injEq]
      intro hc
      exact hback hc rfl
    | cons d r => simpa [List.getLast?_cons] using this

lemma Quoted.of_char {quote c d : Char} {body : List Char}
    (h : Quoted quote (c :: d :: body)) (hd : d ≠ quote) : Quoted quote (d :: body) where
  inside := by
    intro before behind heq
    cases before with
    | nil => exact absurd (List.cons.inj heq).1 hd
    | cons e before =>
      simpa [List.getLast?_cons] using h.inside (c :: e :: before) behind (by rw [heq]; rfl)
  closing := by
    have := h.closing
    simpa [List.getLast?_cons] using this

/-- A quoted text is read up to its closing delimiter. -/
lemma Quoted.quotedBody {quote : Char} (hq : quote ≠ '\\') {body : List Char}
    (h : Quoted quote body) (rest : List Char) :
    quotedBody quote (body ++ quote :: rest) = some (unescape quote body, rest) := by
  fun_induction unescape quote body with
  | case1 => cases rest <;> simp [Lexeme.quotedBody, hq]
  | case2 c =>
    have hc := h.head_ne_quote
    have hback : c ≠ '\\' := by simpa using h.closing
    rw [List.cons_append, List.nil_append, Lexeme.quotedBody, if_neg (by simp [hback]),
      if_neg hc]
    cases rest <;> simp [Lexeme.quotedBody, hq]
  | case3 c d r hcd ih =>
    obtain ⟨rfl, rfl⟩ := hcd
    rw [List.cons_append, List.cons_append, Lexeme.quotedBody, if_pos ⟨rfl, rfl⟩,
      ih (h.of_escaped (h.head_ne hq))]
    rfl
  | case4 c d r hcd ih =>
    have hd : d ≠ quote := by
      rintro rfl
      have := h.inside [c] r rfl
      exact hcd ⟨by simpa using this, rfl⟩
    rw [List.cons_append, List.cons_append, Lexeme.quotedBody, if_neg hcd,
      if_neg h.head_ne_quote, ← List.cons_append, ih (h.of_char hd)]
    rfl

/-- What is read of a string is a quoted text. -/
lemma quoted_of_quotedBody {quote : Char} (hq : quote ≠ '\\') {cs : List Char}
    {p : List Char × List Char} (h : quotedBody quote cs = some p) :
    ∃ body, cs = body ++ quote :: p.2 ∧ Quoted quote body ∧ p.1 = unescape quote body := by
  fun_induction Lexeme.quotedBody quote cs generalizing p with
  | case1 => simp at h
  | case2 =>
    obtain rfl := Option.some.inj h
    exact ⟨[], rfl, .nil quote, rfl⟩
  | case3 => simp at h
  | case4 c d r hcd ih =>
    obtain ⟨rfl, rfl⟩ := hcd
    obtain ⟨q, hr, rfl⟩ := Option.map_eq_some_iff.1 h
    obtain ⟨body, rfl, hbody, htext⟩ := ih hr
    refine ⟨'\\' :: d :: body, rfl, hbody.escaped hq, ?_⟩
    rw [unescape, if_pos ⟨rfl, rfl⟩, htext]
  | case5 =>
    obtain rfl := Option.some.inj h
    exact ⟨[], rfl, .nil _, rfl⟩
  | case6 c d r hcd hc ih =>
    obtain ⟨q, hr, rfl⟩ := Option.map_eq_some_iff.1 h
    obtain ⟨body, heq, hbody, htext⟩ := ih hr
    refine ⟨c :: body, by rw [heq]; rfl, hbody.char hc ?_, ?_⟩
    · rintro rfl rfl
      exact hcd ⟨rfl, (List.cons.inj heq).1⟩
    · cases body with
      | nil => simp [unescape, htext]
      | cons e s =>
        obtain rfl := (List.cons.inj heq).1
        rw [unescape, if_neg hcd, htext]

/-! ## Reading and the grammar -/

variable {b : Builtins} {c : Char} {r word rest text : List Char} {k : Kind} {l : Lexeme}

/-- Two lexemes at the head of one text that are both the longest of a form are the same. -/
lemma Longest.unique {form : List Char → Prop} {w w' s s' : List Char} (hw : form w)
    (hw' : form w') (h : Longest form w s) (h' : Longest form w' s') (heq : w ++ s = w' ++ s') :
    w = w' ∧ s = s' := by
  have hlen := Nat.le_antisymm (h' w hw (heq ▸ List.prefix_append w s))
    (h w' hw' (heq.symm ▸ List.prefix_append w' s'))
  exact List.append_inj heq hlen

lemma begins_of_readSpelled (h : readSpelled c r = .ok l) :
    ∃ word rest, c :: r = word ++ rest ∧ l.len = word.length ∧
      Begins b word rest l.kind l.text := by
  unfold readSpelled at h
  split at h
  · simp at h
  · next hand =>
    split at h
    · simp at h
    · next hor =>
      split at h
      · next k hk =>
        obtain rfl := Except.ok.inj h
        obtain ⟨hmem, ⟨rest, hrest⟩, -⟩ := spelled?_eq_some_iff.1 hk
        refine ⟨k.symbol.toList, rest, hrest.symm, String.length_toList.symm, ?_⟩
        rw [← hrest] at hk
        cases k with
        | operator o =>
          exact .operator (((longest_iff hmem).1 hk).resolve_left (by simp [Kind.group]))
        | leftParen | rightParen | leftBracket | rightBracket => exact .delimiter (by simp)
        | and =>
          refine .connective (by simp) fun hhead => hand ?_
          have hsplit : c :: r = '&' :: rest := hrest.symm
          obtain ⟨rfl, rfl⟩ := List.cons.inj hsplit
          exact ⟨rfl, hhead⟩
        | or =>
          refine .connective (by simp) fun hhead => hor ?_
          have hsplit : c :: r = '|' :: rest := hrest.symm
          obtain ⟨rfl, rfl⟩ := List.cons.inj hsplit
          exact ⟨rfl, hhead⟩
        | _ => exact absurd hmem (by decide)
      · split at h <;> simp at h

/-- What is read is a lexeme of the grammar. -/
theorem begins_of_read (h : read b c r = .ok l) :
    ∃ word rest, c :: r = word ++ rest ∧ l.len = word.length ∧
      Begins b word rest l.kind l.text := by
  by_cases hq : isQuote c = true
  · rw [read_of_isQuote hq, readQuoted] at h
    split at h
    · next content rest hbody =>
      obtain rfl := Except.ok.inj h
      obtain ⟨body, rfl, hquoted, rfl⟩ := quoted_of_quotedBody (ne_backslash_of_isQuote hq) hbody
      refine ⟨c :: (body ++ [c]), rest, by simp, ?_, .string hq hquoted⟩
      simp only [List.length_append, List.length_cons, List.length_nil]
      omega
    · simp at h
  · by_cases hn : c = '-' ∨ c.isDigit = true
    · rw [read_of_number hn] at h
      rcases readNumber_cases hn (r := r) with ⟨word, rest, hsplit, hw, hlong, hread⟩ | ⟨-, m, hm⟩
      · rcases hread with hread | ⟨-, m, hm⟩
        · obtain rfl := Except.ok.inj (hread.symm.trans h)
          exact ⟨word, rest, hsplit, rfl, .number hw hlong⟩
        · simp [hm] at h
      · simp [hm] at h
    · by_cases hl : isLetter c = true
      · rw [read_of_isLetter hl, readName,
          nameLength_char (by simp [isNameChar, isAlnum, hl])] at h
        obtain ⟨n, hn, rfl⟩ := Except.map_eq_ok_iff.1 h
        obtain ⟨tail, rest, rfl, rfl, htail, hends⟩ := nameTail_of_nameLength (by simp) hn
        refine ⟨c :: tail, rest, rfl, by simp only [List.length_cons]; omega, ?_⟩
        have htake : (c :: (tail ++ rest)).take (0 + 1 + tail.length) = c :: tail := by
          rw [Nat.zero_add, Nat.add_comm, List.take_succ_cons, List.take_left]
        rw [htake]
        exact .name (.letter hl htail) hends
      · rw [read, if_neg hq, if_neg (by simpa using hn), if_neg hl] at h
        exact begins_of_readSpelled h

/-- A connective is recognised by its first character. -/
lemma eq_of_head_symbol {j : Kind} {s : List Char} (hj : j ∈ [Kind.and, .or]) (hk : k ∈ spelled)
    (h : k.symbol.toList = c :: s) (hc : some c = j.symbol.toList.head?) : k = j ∧ s = [] := by
  have hspelled : j ∈ spelled ∧ j.group ≠ .operator ∧ j.symbol.toList.tail = [] := by
    simp only [List.mem_cons, List.not_mem_nil, or_false] at hj
    rcases hj with rfl | rfl <;> decide
  obtain rfl := eq_of_head_eq hk hspelled.1 (by rw [h, ← hc]; rfl) hspelled.2.1
  refine ⟨rfl, ?_⟩
  simpa [h] using hspelled.2.2

lemma read_of_mem_spelled (hk : k ∈ spelled)
    (hlong : k.group ≠ .operator ∨ Longest IsOperator k.symbol.toList rest)
    (hdouble : k ∈ [Kind.and, .or] → rest.head? ≠ k.symbol.toList.head?)
    (hsplit : c :: r = k.symbol.toList ++ rest) :
    read b c r = .ok ⟨k, k.symbol.toList, k.symbol.toList.length⟩ := by
  obtain ⟨d, s, hd, hquote, hnumber, hletter, -⟩ := head_symbol hk
  have hread : spelled? (c :: r) = some k := by
    rw [hsplit]
    exact (longest_iff hk).2 hlong
  rw [hd, List.cons_append] at hsplit
  obtain ⟨rfl, rfl⟩ := List.cons.inj hsplit
  -- a doubled connective would be one followed by itself
  have hsingle : ∀ j ∈ [Kind.and, .or], some c = j.symbol.toList.head? →
      (s ++ rest).head? ≠ j.symbol.toList.head? := by
    intro j hj hc
    obtain ⟨rfl, rfl⟩ := eq_of_head_symbol hj hk hd hc
    exact hdouble hj
  have hand : ¬(c = '&' ∧ (s ++ rest).head? = some '&') := fun ⟨hc, hhead⟩ =>
    hsingle .and (by simp) (congrArg some hc) hhead
  have hor : ¬(c = '|' ∧ (s ++ rest).head? = some '|') := fun ⟨hc, hhead⟩ =>
    hsingle .or (by simp) (congrArg some hc) hhead
  rw [read, if_neg (by simp [hquote]), if_neg (by simp [hnumber]), if_neg (by simp [hletter]),
    readSpelled, if_neg hand, if_neg hor, hread, String.length_toList]

/-- The longest number of a text is read, unless a point follows it. -/
lemma readNumber_of_longest (hn : c = '-' ∨ c.isDigit = true) (hw : Number word)
    (hlong : Longest Number word rest) (hrest : rest.head? ≠ some '.')
    (hsplit : c :: r = word ++ rest) : readNumber c r = .ok ⟨.number, word, word.length⟩ := by
  rcases readNumber_cases hn (r := r) with ⟨word', rest', hsplit', hw', hlong', hread⟩ | ⟨hnone, -⟩
  · obtain ⟨rfl, rfl⟩ := hlong.unique hw hw' hlong' (hsplit.symm.trans hsplit')
    exact hread.resolve_right fun h => hrest h.1
  · exact absurd (hsplit ▸ List.prefix_append word rest) (hnone word hw)

/-- A lexeme of the grammar is read, unless it is a number with a point behind it. -/
theorem Begins.read (h : Begins b word rest k text) (hrest : rest.head? ≠ some '.')
    (hsplit : c :: r = word ++ rest) : Lexeme.read b c r = .ok ⟨k, text, word.length⟩ := by
  cases h with
  | delimiter hk =>
    have hspelled : k ∈ spelled ∧ k.group ≠ .operator ∧ k ∉ [Kind.and, .or] := by
      simp only [List.mem_cons, List.not_mem_nil, or_false] at hk
      rcases hk with rfl | rfl | rfl | rfl <;> decide
    exact read_of_mem_spelled hspelled.1 (.inl hspelled.2.1) (fun h => absurd h hspelled.2.2)
      hsplit
  | connective hk hdouble =>
    have hspelled : k ∈ spelled ∧ k.group ≠ .operator := by
      simp only [List.mem_cons, List.not_mem_nil, or_false] at hk
      rcases hk with rfl | rfl <;> decide
    exact read_of_mem_spelled hspelled.1 (.inl hspelled.2) (fun _ => hdouble) hsplit
  | operator hlong =>
    exact read_of_mem_spelled (mem_spelled (by simp [Kind.group])) (.inr hlong) (by simp) hsplit
  | number hw hlong =>
    have hn : c = '-' ∨ c.isDigit = true := by
      have hhead := hw.head
      cases word with
      | nil => simp at hhead
      | cons d s =>
        obtain ⟨rfl, -⟩ := List.cons.inj hsplit
        simpa using hhead
    rw [read_of_number hn]
    exact readNumber_of_longest hn hw hlong hrest hsplit
  | name hw hends =>
    obtain @⟨_, tail, hletter, htail⟩ := hw
    rw [List.cons_append] at hsplit
    obtain ⟨rfl, rfl⟩ := List.cons.inj hsplit
    have htake : (c :: (tail ++ rest)).take (0 + 1 + tail.length) = c :: tail := by
      rw [Nat.zero_add, Nat.add_comm, List.take_succ_cons, List.take_left]
    rw [read_of_isLetter hletter, readName,
      nameLength_char (by simp [isNameChar, isAlnum, hletter]), htail.nameLength hends,
      Except.map, htake, List.length_cons, Nat.zero_add, Nat.add_comm]
  | @string _ body _ hq hquoted =>
    rw [List.cons_append, List.append_assoc, List.singleton_append] at hsplit
    obtain ⟨rfl, rfl⟩ := List.cons.inj hsplit
    have hlen : (body ++ c :: rest).length + 1 - rest.length = (c :: (body ++ [c])).length := by
      simp only [List.length_append, List.length_cons, List.length_nil]
      omega
    rw [read_of_isQuote hq, readQuoted, hquoted.quotedBody (ne_backslash_of_isQuote hq)]
    simp only [hlen]

/-- No lexeme begins with a blank, a comma or a point. -/
lemma Begins.exists_cons (h : Begins b word rest k text) :
    ∃ c r, word = c :: r ∧ isBlank c = false ∧ c ≠ ',' ∧ c ≠ '.' := by
  have hspelled : ∀ {k : Kind}, k.group ≠ .operand →
      ∃ c r, k.symbol.toList = c :: r ∧ isBlank c = false ∧ c ≠ ',' ∧ c ≠ '.' := by
    intro k hk
    obtain ⟨c, r, hsymbol, -, -, -, hfirst⟩ := head_symbol (mem_spelled hk)
    exact ⟨c, r, hsymbol, hfirst⟩
  cases h with
  | delimiter hk =>
    simp only [List.mem_cons, List.not_mem_nil, or_false] at hk
    rcases hk with rfl | rfl | rfl | rfl <;> exact hspelled (by decide)
  | connective hk _ =>
    simp only [List.mem_cons, List.not_mem_nil, or_false] at hk
    rcases hk with rfl | rfl <;> exact hspelled (by decide)
  | operator _ => exact hspelled (k := .operator _) (by simp [Kind.group])
  | number hw _ =>
    have hhead := hw.head
    cases word with
    | nil => simp at hhead
    | cons c r =>
      have hnumber : c = '-' ∨ c.isDigit = true := by simpa using hhead
      refine ⟨c, r, rfl, not_isBlank (.inr hnumber), ?_, ?_⟩ <;>
        · rintro rfl
          revert hnumber
          decide
  | name hw _ =>
    obtain @⟨c, r, hletter, -⟩ := hw
    refine ⟨c, r, rfl, not_isBlank (.inl hletter), ?_, ?_⟩ <;>
      · rintro rfl
        revert hletter
        decide
  | @string quote _ _ hq _ =>
    simp only [isQuote, Bool.or_eq_true, decide_eq_true_eq] at hq
    refine ⟨quote, _, rfl, ?_⟩
    rcases hq with (rfl | rfl) | rfl <;> decide

end Lexeme
end ContentFilter
