import ContentFilter.Operator
import ContentFilter.Proofs.Sql.Sign
/-!
# Operators in SQL

The signs of a text of SQL, read as marks: operators and keywords are recognised, and blanks are
dropped.  Runs of symbol characters are as long as possible, so that `->>` is one operator.  The
operators have the precedence that they have in PostgreSQL (`Binary.rank`): a cast binds tightest,
then come the arrows and the matches of regular expressions on one level, then `LIKE` and `IN`, the
comparisons, `NOT`, `AND` and `OR`.  A comma is taken as the weakest one.

No run of symbols goes across a border at which there is another sign on either side, so that the
marks on both sides of it can be read apart (`marks_append`).
-/

namespace ContentFilter
namespace Sql

/-- The operators between two expressions. -/
inductive Binary where
  /-- The comma in a list and between arguments. -/
  | comma
  | or
  | and
  /-- The operators of conditions, in the spelling of PostgreSQL. -/
  | operator (operator : Operator)
  /-- The match of a regular expression in SQLite. -/
  | regexp
  /-- The operators that reach into a JSON value. -/
  | arrow (symbol : String)
  | cast
deriving DecidableEq, Repr

namespace Binary

/-- The rank of `NOT`, between the connectives and the comparisons. -/
def notRank : Nat := 3

/-- The rank of the arrows and of the matches of regular expressions. -/
def arrowRank : Nat := 6

/-- How tight an operator binds. -/
def rank : Binary → Nat
  | comma => 0
  | or => 1
  | and => 2
  | operator (.compare _) => 4
  | operator (.like _ _) | operator (.member _) | regexp => 5
  | operator (.regex _ _) | arrow _ => arrowRank
  | cast => 7

/-- The rank of what no operator takes apart. -/
def tightest : Nat := 8

lemma rank_lt_tightest (op : Binary) : op.rank < tightest := by
  cases op with
  | operator o => cases o <;> simp [rank, arrowRank, tightest]
  | _ => simp [rank, arrowRank, tightest]

/-- The operators that `NOT` may stand in front of. -/
def negated? : Binary → Option Binary
  | operator (.like false c) => some (operator (.like true c))
  | operator (.member false) => some (operator (.member true))
  | _ => none

/-- The operators that are written with symbols. -/
def symbolic : List (String × Binary) :=
  [Operator.compare .eq, .compare .ne, .compare .gt, .compare .ge, .compare .lt, .compare .le,
    .regex false false, .regex false true, .regex true false, .regex true true].map
      (fun o => (o.symbol, operator o)) ++
    ["->", "->>", "#>>"].map (fun s => (s, arrow s)) ++ [("::", cast)]

/-- The operators that are written with words. -/
def verbal : List (String × Binary) :=
  [("or", or), ("and", and), ("like", operator (.like false false)),
    ("ilike", operator (.like false true)), ("in", operator (.member false)), ("regexp", regexp)]

end Binary

/-! ## Marks -/

/-- A sign of SQL with its part in an expression. -/
inductive Mark where
  | leftParen
  | rightParen
  /-- A name, a number, or a keyword of a query. -/
  | word (w : List Char)
  /-- A literal, by the text it stands for. -/
  | literal (content : List Char)
  /-- Any other character. -/
  | other (c : Char)
  | binary (op : Binary)
  | not
  /-- The sign of a negative number. -/
  | minus
deriving DecidableEq, Repr

/-- The characters that operators are made of. -/
def isSymbolChar (c : Char) : Bool := "+-*/<>=~!@#%^&|?:".toList.contains c

/-- The marks of a run of symbol characters. -/
def symbolMarks (run : List Char) : List Mark :=
  match Binary.symbolic.find? fun e => e.1.toList = run with
  | some e => [.binary e.2]
  | none => if run = ['-'] then [.minus] else run.map .other

/-- The mark of a word, by its letters in lower case. -/
def wordMark (w : List Char) : Mark :=
  let lower := w.map Char.toLower
  if lower = "not".toList then .not
  else
    match Binary.verbal.find? fun e => e.1.toList = lower with
    | some e => .binary e.2
    | none => .word w

/-- The marks of a character that is no symbol. -/
def charMarks (c : Char) : List Mark :=
  if c.isWhitespace then [] else if c = ',' then [.binary .comma] else [.other c]

/-- The marks of some signs, given the symbols that were read before them. -/
def marksFrom (run : List Char) : List Sign → List Mark
  | [] => symbolMarks run
  | .leftParen :: r => symbolMarks run ++ .leftParen :: marksFrom [] r
  | .rightParen :: r => symbolMarks run ++ .rightParen :: marksFrom [] r
  | .word w :: r => symbolMarks run ++ wordMark w :: marksFrom [] r
  | .literal s :: r => symbolMarks run ++ .literal s :: marksFrom [] r
  | .other c :: r =>
    if isSymbolChar c then marksFrom (run ++ [c]) r
    else symbolMarks run ++ charMarks c ++ marksFrom [] r

/-- The marks of some signs. -/
def marks (ls : List Sign) : List Mark := marksFrom [] ls

/-! ## Where the marks of joined signs are joined marks -/

/-- The sign is a symbol character. -/
def Sign.isSymbol : Sign → Bool
  | other c => isSymbolChar c
  | _ => false

/-- No run of symbols goes on from the one sequence to the other. -/
def Bordered (us vs : List Sign) : Prop :=
  us.getLast?.all (fun x => !x.isSymbol) = true ∨ vs.head?.all (fun x => !x.isSymbol) = true

@[simp] lemma symbolMarks_nil : symbolMarks [] = [] := by decide

@[simp] lemma marks_nil : marks [] = [] := symbolMarks_nil

lemma marksFrom_of_head (run : List Char) {vs : List Sign}
    (h : vs.head?.all (fun x => !x.isSymbol) = true) :
    marksFrom run vs = symbolMarks run ++ marks vs := by
  match vs, h with
  | [], _ => simp [marksFrom]
  | .other c :: r, h =>
    have hc : isSymbolChar c = false := by simpa [Sign.isSymbol] using h
    simp [marks, marksFrom, hc]
  | .leftParen :: r, _ => simp [marks, marksFrom]
  | .rightParen :: r, _ => simp [marks, marksFrom]
  | .word w :: r, _ => simp [marks, marksFrom]
  | .literal s :: r, _ => simp [marks, marksFrom]

lemma marksFrom_append (run : List Char) (us : List Sign) {vs : List Sign}
    (h : vs.head?.all (fun x => !x.isSymbol) = true) :
    marksFrom run (us ++ vs) = marksFrom run us ++ marks vs := by
  induction us generalizing run with
  | nil => exact marksFrom_of_head run h
  | cons x us ih =>
    cases x with
    | other c =>
      simp only [List.cons_append, marksFrom]
      split
      · exact ih _
      · simp [ih]
    | _ => simp [marksFrom, ih]

lemma marks_cons {x : Sign} (h : x.isSymbol = false) (vs : List Sign) :
    marks (x :: vs) = marks [x] ++ marks vs := by
  cases x with
  | other c =>
    have hc : isSymbolChar c = false := h
    simp [marks, marksFrom, hc]
  | _ => simp [marks, marksFrom]

/-- The marks on both sides of a border are read apart. -/
lemma marks_append {us vs : List Sign} (h : Bordered us vs) :
    marks (us ++ vs) = marks us ++ marks vs := by
  rcases h with h | h
  · rcases List.eq_nil_or_concat' us with rfl | ⟨ws, x, rfl⟩
    · simp
    · have hx : x.isSymbol = false := by simpa using h
      have hall : marks (ws ++ x :: vs) = marks ws ++ marks (x :: vs) :=
        marksFrom_append [] ws (by simpa using h)
      have hleft : marks (ws ++ [x]) = marks ws ++ marks [x] :=
        marksFrom_append [] ws (by simpa using h)
      rw [List.append_assoc, List.singleton_append, hall, marks_cons hx, hleft, List.append_assoc]
  · exact marksFrom_append [] us h

end Sql
end ContentFilter
