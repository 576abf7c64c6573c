import ContentFilter.Proofs.Condition.Values
import ContentFilter.Proofs.Sql.Expression
import ContentFilter.Proofs.Token.Grammar
/-!
# The parts of conditions as expressions

A template is read as an expression piece by piece, as the pieces of code in it begin or end with
something that is no symbol (`Template.marks_append_code`, `Template.marks_code_cons`).
-/

namespace ContentFilter

namespace Sql

/-- The marks of a piece of code. -/
def codeMarks (x : String) : List Mark := marks (signs (codeGlyphs x))

/-- The text begins with a sign that is no symbol. -/
def startsPlain (x : String) : Bool := (signs (codeGlyphs x)).head?.any fun s => !s.isSymbol

/-- The text does not end with a symbol. -/
def endsPlain (x : String) : Bool := (signs (codeGlyphs x)).getLast?.all fun s => !s.isSymbol

/-- A word with a digit in it is no operator. -/
lemma wordMark_eq_word {w : List Char} {c : Char} (hc : c ∈ w) (hd : c.isDigit = true) :
    wordMark w = .word w := by
  have hmem : c ∈ w.map Char.toLower := by
    have hlower := List.mem_map_of_mem (f := Char.toLower) hc
    rwa [toLower_of_isDigit hd] at hlower
  have hne : ∀ v : List Char, v.any Char.isDigit = false → v ≠ w.map Char.toLower := by
    rintro v hv rfl
    exact List.any_eq_false.1 hv c hmem hd
  have hverbal : Binary.verbal.find? (fun e => e.1.toList = w.map Char.toLower) = none := by
    refine List.find?_eq_none.2 fun e he => ?_
    have hdigits : Binary.verbal.all (fun e => !e.1.toList.any Char.isDigit) = true := by decide
    have hv := List.all_eq_true.1 hdigits e he
    simpa using hne _ (by simpa using hv)
  have hnot := hne "not".toList (by decide)
  simp only [wordMark, if_neg hnot.symm, hverbal]

end Sql

namespace Template

open Sql hiding marks

/-- The marks of a template whose holes are filled with the names of a counter. -/
def marks (c : Counter) (t : Template) : List Sql.Mark :=
  Sql.marks (t.signs c)

variable {c : Counter} {t u : Template} {x : String}

lemma marks_code_cons (h : endsPlain x = true) (c : Counter) (u : Template) :
    marks c (.code x :: u) = codeMarks x ++ u.marks c :=
  marks_append (.inl h)

lemma marks_append_code (h : startsPlain x = true) (c : Counter) (t u : Template) :
    (t ++ .code x :: u).marks c =
      t.marks c ++ marks (c.advance t.values.length) (.code x :: u) := by
  rw [marks, signs_append]
  refine marks_append (.inr ?_)
  obtain ⟨s, hs, hplain⟩ := (Option.any_eq_true _ _).1 h
  obtain ⟨tail, htail⟩ := List.head?_eq_some_iff.1 hs
  simpa [signs, htail] using hplain

/-- Code between two templates that is parted from both by signs that are no symbols. -/
lemma marks_joined (h : (startsPlain x && endsPlain x) = true) (c : Counter) (t u : Template) :
    (t ++ .code x :: u).marks c =
      t.marks c ++ (codeMarks x ++ u.marks (c.advance t.values.length)) := by
  rw [Bool.and_eq_true] at h
  rw [marks_append_code h.1, marks_code_cons h.2]

@[simp] lemma marks_empty (c : Counter) : marks c [] = [] := marks_nil

@[simp] lemma marks_code (c : Counter) (x : String) : marks c [.code x] = codeMarks x := by
  simp [marks, signs, codeMarks]

@[simp] lemma codeMarks_comma : codeMarks ", " = [.binary .comma] := by decide

@[simp] lemma codeMarks_rightParen : codeMarks ")" = [.rightParen] := by decide

/-- A template between code that opens a parenthesis and the closing one. -/
lemma marks_enclosed (h : endsPlain x = true) (c : Counter) (t : Template) :
    (.code x :: t ++ [.code ")"] : Template).marks c =
      codeMarks x ++ (t.marks c ++ [.rightParen]) := by
  rw [marks_append_code (by decide), marks_code_cons h, marks_code, codeMarks_rightParen,
    List.append_assoc]

@[simp] lemma marks_literal (c : Counter) (s : String) (u : Template) :
    marks c (.literal s :: u) = .literal s.toList :: u.marks c := by
  simp [marks, signs, Sql.marks, marksFrom]

@[simp] lemma marks_hole (c : Counter) (v : Scalar) (u : Template) :
    marks c (.hole v :: u) = .other ':' :: .word c.name.toList :: u.marks c.succ := by
  obtain ⟨x, hx, hdigit⟩ := c.exists_digit_mem_name
  have hcolon : isSymbolChar ':' = true ∧ symbolMarks [':'] = [.other ':'] := by decide
  simp [marks, signs, Sql.marks, marksFrom, hcolon, wordMark_eq_word hx hdigit]

/-- A template that is read, when it is filled, piece by piece. -/
structure Readable (t : Template) : Prop where
  spaced : t.Spaced
  signs_glyphs : ∀ c, Sql.signs (t.glyphs c) = t.signs c

lemma Formed.readable {Q : String → Prop} {d e : Nat} (h : Formed Q d t e)
    (hQ : ∀ x, Q x → '\'' ∉ x.toList) : Readable t :=
  ⟨h.spaced hQ, h.signs_glyphs⟩

lemma Spaced.append (ht : Spaced t) (hu : Spaced u) (hp : Parted u) : Spaced (t ++ u) := by
  induction t with
  | nil => exact hu
  | cons p t ih =>
    cases p with
    | code x => exact ⟨ht.1, ih ht.2⟩
    | literal x => exact ⟨ht.1.append hp, ih ht.2⟩
    | hole v => exact ⟨ht.1.append hp, ih ht.2⟩

/-- Code that begins with a delimiter can be put behind a template. -/
lemma Readable.concat (h : Readable t) (hx : '\'' ∉ x.toList)
    (hhead : x.toList.head?.any isDelimiter = true) : Readable (t ++ [.code x]) := by
  have hparted : Parted [.code x] := hhead
  refine ⟨h.spaced.append ⟨hx, trivial⟩ hparted, fun c => ?_⟩
  have hdelimited := (hparted.opened).delimited (c.advance t.values.length)
  rw [glyphs_append, signs_append_of_delimited _ hdelimited, signs_append, h.signs_glyphs]
  simp [glyphs, signs]

/-- A filled template is read by its marks. -/
lemma expression?_fill (h : Readable t) (s : Sink) :
    expression? (t.fill s).1 = parse (t.marks s.counter) := by
  rw [expression?, signsOf, glyphs_fill h.spaced, Option.map_some, h.signs_glyphs]
  rfl

end Template

/-! ## Columns and numbers -/

namespace Sql

/-- Code that is made of names and points is an expression. -/
lemma reads_code {x : String} (h : codeMarks x ≠ [] ∧ (codeMarks x).all Mark.isPlain = true)
    (k : Nat) : Reads k (codeMarks x) (.atom (codeMarks x)) :=
  .atom h.1 (List.all_eq_true.1 h.2)

/-- Code that is an expression of its own, and that no operator beside it takes apart. -/
structure Tight (x : String) : Prop where
  quote_free : '\'' ∉ x.toList
  reads : ∃ e, Reads Binary.tightest (codeMarks x) e

/-- A reference to a column: names, perhaps in double quotes, with points between them, and none of
them an operator. -/
structure IsColumn (x : String) : Prop where
  chars : ∀ c ∈ x.toList, isWordChar c = true ∨ c = '.' ∨ c = '"'
  nonempty : codeMarks x ≠ []
  plain : ∀ m ∈ codeMarks x, m.isPlain = true

lemma IsColumn.tight {x : String} (h : IsColumn x) : Tight x := by
  refine ⟨fun hq => ?_, _, .atom h.nonempty h.plain⟩
  rcases h.chars _ hq with hword | hpoint | hquote
  · exact absurd hword (by decide)
  · exact absurd hpoint (by decide)
  · exact absurd hquote (by decide)

lemma tight_bool (b : Bool) : Tight (Scalar.ofBool b) := by
  exact ⟨by cases b <;> decide, _, reads_code (by cases b <;> decide) _⟩

section

open Lexeme (Digits Unsigned Number)

variable {w ds : List Char}

lemma signs_digits (h : Digits ds) : signs (ds.map .code) = [.word ds] := by
  have hword : ∀ c ∈ ds, isWordChar c = true := fun c hc => by
    simp [isWordChar, Char.isAlphanum, h.2 c hc]
  rw [signs, signsFrom_word [] hword]
  simp [wordSign, h.1]

lemma wordMark_digits (h : Digits ds) : wordMark ds = .word ds := by
  obtain ⟨d, hd⟩ := List.exists_mem_of_ne_nil _ h.1
  exact wordMark_eq_word hd (h.2 d hd)

/-- A number without a sign is made of words and perhaps a point. -/
lemma marks_unsigned (h : Unsigned w) :
    ∃ ds ls, signs (w.map .code) = .word ds :: ls ∧
      ∀ m ∈ marks (signs (w.map .code)), m.isPlain = true := by
  cases h with
  | whole hds =>
    refine ⟨w, [], signs_digits hds, ?_⟩
    simp [signs_digits hds, marks, marksFrom, wordMark_digits hds, Mark.isPlain]
  | @fraction ds es hds hes =>
    have hpoint : Delimited (.code '.' :: es.map .code) := by
      rintro c r heq
      obtain ⟨rfl, -⟩ := by simpa using heq
      decide
    have htail : signs (.code '.' :: es.map .code) = .other '.' :: signs (es.map .code) := rfl
    have hsigns : signs ((ds ++ '.' :: es).map .code) = [.word ds, .other '.', .word es] := by
      rw [List.map_append, List.map_cons, signs_append_of_delimited _ hpoint, htail,
        signs_digits hds, signs_digits hes]
      rfl
    have hother : isSymbolChar '.' = false ∧ charMarks '.' = [.other '.'] := by decide
    refine ⟨ds, _, hsigns, ?_⟩
    rw [hsigns]
    simp [marks, marksFrom, wordMark_digits hds, wordMark_digits hes, hother, Mark.isPlain]

lemma reads_unsigned (h : Unsigned w) :
    Reads Binary.tightest (marks (signs (w.map .code))) (.atom (marks (signs (w.map .code)))) := by
  obtain ⟨ds, ls, hsigns, hplain⟩ := marks_unsigned h
  refine .atom ?_ hplain
  simp [hsigns, marks, marksFrom]

/-- A number is an expression, with its sign. -/
lemma exists_reads_number (h : Number w) :
    ∃ e, Reads Binary.tightest (marks (signs (w.map .code))) e := by
  cases h with
  | positive hw => exact ⟨_, reads_unsigned hw⟩
  | @negative w hw =>
    obtain ⟨ds, ls, hsigns, -⟩ := marks_unsigned hw
    have hborder : Bordered [.other '-'] (signs (w.map .code)) := by
      simp [Bordered, hsigns, Sign.isSymbol]
    have hminus : marks (signs (('-' :: w).map .code)) = .minus :: marks (signs (w.map .code)) :=
      marks_append hborder
    rw [hminus]
    exact ⟨_, (reads_unsigned hw).minus⟩

lemma not_quote_mem_unsigned (h : Unsigned w) : '\'' ∉ w := by
  have hdigits : ∀ {ds : List Char}, Digits ds → '\'' ∉ ds :=
    fun hds hmem => absurd (hds.2 _ hmem) (by decide)
  cases h with
  | whole hds => exact hdigits hds
  | fraction hds hes => simp [hdigits hds, hdigits hes]

lemma tight_number {x : String} (h : Number x.toList) : Tight x := by
  refine ⟨?_, exists_reads_number h⟩
  generalize x.toList = w at h
  cases h with
  | positive hw => exact not_quote_mem_unsigned hw
  | negative hw => simp [not_quote_mem_unsigned hw]

end

end Sql

/-! ## Fields -/

namespace Sql

/-- The value that some keys lead to from an expression; the last arrow is given. -/
def Expr.along (last : String) : Expr → List String → Expr
  | e, [] => e
  | e, [k] => .binary (.arrow last) e (.atom [.literal k.toList])
  | e, k :: l :: r => along last (.binary (.arrow "->") e (.atom [.literal k.toList])) (l :: r)

/-- The content of the node. -/
def Expr.content : Expr := .atom (codeMarks "n.content")

/-- An arrow is applied last. -/
lemma Expr.exists_along_eq {keys : List String} (h : keys ≠ []) (last : String) (e : Expr) :
    ∃ a l r, e.along last keys = .binary (.arrow a) l r := by
  fun_induction along last e keys with
  | case1 => exact absurd rfl h
  | case2 e k => exact ⟨_, _, _, rfl⟩
  | case3 e k l r ih => exact ih (by simp)

/-- The marks of arrows along some keys. -/
def arrowMarks (last : String) : List String → List Mark
  | [] => []
  | [k] => [.binary (.arrow last), .literal k.toList]
  | k :: l :: r => .binary (.arrow "->") :: .literal k.toList :: arrowMarks last (l :: r)

/-- Arrows are applied to the whole of an expression that binds as tight as they do, and so they
take in an operator of the same rank in front of them. -/
lemma Reads.along {ms : List Mark} {e : Expr} (h : Reads Binary.arrowRank ms e) (last : String)
    (keys : List String) :
    Reads Binary.arrowRank (ms ++ arrowMarks last keys) (e.along last keys) := by
  have hkey : ∀ (k : String) (j : Nat), Reads j [.literal k.toList] (.atom [.literal k.toList]) :=
    fun k j => .atom (by simp) (by simp [Mark.isPlain])
  fun_induction Expr.along last e keys generalizing ms with
  | case1 => simpa [arrowMarks] using h
  | case2 e k => exact h.arrow last (hkey k _)
  | case3 e k l r ih =>
    have hrest := ih (h.arrow "->" (hkey k _))
    simpa [arrowMarks] using hrest

lemma reads_content (k : Nat) : Reads k (codeMarks "n.content") Expr.content :=
  reads_code (by decide) k

end Sql

namespace Template

open Sql hiding marks

variable {c : Counter}

lemma marks_arrows {last : String} (h : last = "->" ∨ last = "->>") (keys : List String) :
    (Dialect.arrows last keys).marks c = arrowMarks last keys := by
  have harrow : ∀ x, x = "->" ∨ x = "->>" → ∀ (k : String) (t : Template),
      marks c (.code x :: .literal k :: t) =
        .binary (.arrow x) :: .literal k.toList :: t.marks c := by
    -- the literal ends the run of symbols
    rintro x hx k t
    have hsplit : marks c (.code x :: .literal k :: t) =
        marks c [.code x, .literal k] ++ t.marks c := by
      have hborder : Bordered (signs c [.code x, .literal k]) (t.signs c) := by
        simp [Bordered, signs, Sign.isSymbol]
      simpa [marks, signs] using marks_append hborder
    rw [hsplit]
    rcases hx with rfl | rfl <;> rfl
  fun_induction Dialect.arrows last keys with
  | case1 => simp [arrowMarks]
  | case2 k => simp [arrowMarks, harrow last h]
  | case3 k l r ih => simp [arrowMarks, harrow "->" (.inl rfl), ih]

/-- The text of a field is the content of the node with arrows behind it. -/
lemma reads_extractText (f : FieldPath) :
    Reads Binary.arrowRank ((Dialect.extractText .postgres f).marks c)
      (Expr.content.along "->>" f.keys) := by
  rw [Dialect.extractText, marks_code_cons (by decide), marks_arrows (.inr rfl)]
  exact (reads_content _).along _ _

lemma reads_extractJson (f : FieldPath) :
    Reads Binary.arrowRank ((Dialect.extractJson .postgres f).marks c)
      (Expr.content.along "->" f.keys) := by
  rw [Dialect.extractJson, marks_code_cons (by decide), marks_arrows (.inl rfl)]
  exact (reads_content _).along _ _

lemma reads_eachItem :
    Reads Binary.arrowRank ((Dialect.eachItem .postgres).marks c)
      ((Expr.atom (codeMarks "w.value")).along "#>>" ["\x7b\x7d"]) := by
  have hmarks : (Dialect.eachItem .postgres).marks c =
      codeMarks "w.value" ++ arrowMarks "#>>" ["\x7b\x7d"] := by
    rw [Dialect.eachItem, marks_code_cons (by decide), marks_literal, marks_empty]
    decide
  rw [hmarks]
  exact (reads_code (by decide) _).along _ _

/-! ## Operands -/

lemma reads_hole (k : Nat) (v : Scalar) :
    Reads k (marks c [.hole v]) (.atom (marks c [.hole v])) := by
  rw [marks_hole, marks_empty]
  exact .atom (by simp) (by simp [Mark.isPlain])

/-- Holes with commas between them. -/
def holes (items : List Scalar) : Template := join ", " (items.map fun v => [.hole v])

lemma marks_holes (v w : Scalar) (items : List Scalar) :
    marks c (holes (v :: w :: items)) =
      marks c [.hole v] ++ .binary .comma :: marks c.succ (holes (w :: items)) := by
  have hjoined := marks_joined (x := ", ") (by decide) c [.hole v] (holes (w :: items))
  rw [codeMarks_comma] at hjoined
  exact hjoined

lemma exists_reads_comma_holes {items : List Scalar} (hne : items ≠ []) {ms : List Sql.Mark}
    {e : Expr} (h : Reads Binary.comma.rank ms e) :
    ∃ e', Reads Binary.comma.rank (ms ++ .binary .comma :: marks c (holes items)) e' := by
  -- commas associate to the left, so what was read before is generalized
  induction items generalizing c ms e with
  | nil => exact absurd rfl hne
  | cons v items ih =>
    have hstep := h.binary (reads_hole (c := c) _ v)
    cases items with
    | nil => exact ⟨_, hstep⟩
    | cons w items =>
      obtain ⟨e', hrest⟩ := ih (c := c.succ) (by simp) hstep
      rw [marks_holes]
      exact ⟨e', by simpa using hrest⟩

lemma exists_reads_holes {items : List Scalar} (hne : items ≠ []) :
    ∃ e, Reads Binary.comma.rank (marks c (holes items)) e := by
  match items, hne with
  | [v], _ => exact ⟨_, reads_hole _ v⟩
  | v :: w :: items, _ =>
    rw [marks_holes]
    exact exists_reads_comma_holes (by simp) (reads_hole _ v)

/-- An operand that is no field is an expression of its own, if its code is. -/
lemma exists_reads_operand {v : Operand} (hcodes : ∀ x ∈ v.codes, Tight x)
    (hlist : v ≠ .list []) (hfield : ∀ g, v ≠ .location (.field g)) :
    ∃ e, Reads Binary.tightest ((v.template .postgres).marks c) e := by
  cases v with
  | location l =>
    cases l with
    | field g => exact absurd rfl (hfield g)
    | column x =>
      rw [Operand.template, Location.template, marks_code]
      exact (hcodes x (by simp [Operand.codes, Location.codes])).reads
  | string s => exact ⟨_, reads_hole _ _⟩
  | number n =>
    rw [Operand.template, marks_code]
    exact (hcodes n (by simp [Operand.codes])).reads
  | boolean b =>
    rw [Operand.template, marks_code]
    exact (tight_bool b).reads
  | now =>
    have hnow : codeMarks "NOW()" = [.word "NOW".toList, .leftParen, .rightParen] := by decide
    rw [Operand.template, Dialect.now, marks_code, hnow]
    exact ⟨_, .nullary (by decide)⟩
  | list items =>
    have hitems : items ≠ [] := by simpa using hlist
    obtain ⟨e, he⟩ := exists_reads_holes (c := c) hitems
    have hmarks : ((Operand.list items).template .postgres).marks c =
        .leftParen :: (marks c (holes items) ++ [.rightParen]) := by
      rw [Operand.template, marks_enclosed (by decide)]
      rfl
    rw [hmarks]
    exact ⟨e, he.group⟩

/-! ## Operators -/

end Template

namespace Sql

/-- The marks of an operator in PostgreSQL. -/
def operatorMarks : Operator → List Mark
  | .like true c => [.not, .binary (.operator (.like false c))]
  | .member true => [.not, .binary (.operator (.member false))]
  | o => [.binary (.operator o)]

/-- An operator is applied to what binds at least as tight as the arrows on its left, and to what
binds tighter than itself on its right. -/
lemma Reads.operator {o : Operator} {ls rs : List Mark} {l r : Expr}
    (hl : Reads Binary.arrowRank ls l) (hr : Reads ((Binary.operator o).rank + 1) rs r) :
    Reads Binary.notRank (ls ++ (operatorMarks o ++ rs)) (.binary (.operator o) l r) := by
  have hle : Binary.notRank ≤ (Binary.operator o).rank ∧
      (Binary.operator o).rank ≤ Binary.arrowRank := by
    cases o <;> simp [Binary.rank, Binary.notRank, Binary.arrowRank]
  have hplain := ((hl.weaken hle.2).binary hr).weaken hle.1
  cases o with
  | compare relation => exact hplain
  | like n c =>
    cases n with
    | false => exact hplain
    | true => exact (hl.weaken hle.2).negated rfl hr
  | regex n c => exact hplain
  | member n =>
    cases n with
    | false => exact hplain
    | true => exact (hl.weaken hle.2).negated rfl hr

end Sql

namespace Template

open Sql hiding marks

lemma marks_operator (o : Operator) (c : Counter) (expr right : Template) :
    (o.template .postgres expr right).marks c =
      expr.marks c ++ (operatorMarks o ++ right.marks (c.advance expr.values.length)) := by
  have hjoined : ∀ x, (startsPlain x && endsPlain x) = true → codeMarks x = operatorMarks o →
      (expr ++ .code x :: right).marks c =
        expr.marks c ++ (operatorMarks o ++ right.marks (c.advance expr.values.length)) := by
    intro x hx hmarks
    rw [marks_joined hx, hmarks]
  cases o with
  | compare r => cases r <;> exact hjoined _ (by decide) (by decide)
  | like n k => cases n <;> cases k <;> exact hjoined _ (by decide) (by decide)
  | regex n k => cases n <;> cases k <;> exact hjoined _ (by decide) (by decide)
  | member n => cases n <;> exact hjoined _ (by decide) (by decide)

/-! ## Subqueries and calls -/

lemma reads_eachTemplate {j k : Nat} {e : Expr} {o : Operator} {v : Operand} (d : Dialect)
    (f : FieldPath) (h : Reads k ((o.template d d.eachItem (v.itemTemplate d)).marks c) e) :
    Reads j ((Condition.eachTemplate d f o v).marks c) (.someRow ((d.each f).marks c) e) := by
  have hmarks : (Condition.eachTemplate d f o v).marks c =
      .word "EXISTS".toList :: .leftParen :: ((.word "SELECT".toList :: .word ['1'] ::
        .word "FROM".toList :: ((d.each f).marks c ++ .word "WHERE".toList ::
          (o.template d d.eachItem (v.itemTemplate d)).marks c)) ++ [.rightParen]) := by
    have hopen : codeMarks "EXISTS (SELECT 1 FROM " = [.word "EXISTS".toList, .leftParen,
        .word "SELECT".toList, .word ['1'], .word "FROM".toList] := by decide +kernel
    have hwhere : codeMarks " WHERE " = [.word "WHERE".toList] := by decide
    rw [Condition.eachTemplate, List.cons_append, marks_enclosed (by decide),
      marks_joined (by decide), hopen, hwhere]
    simp
  rw [hmarks]
  cases d <;> exact .someRow (by decide) (by decide) (by decide) (by decide) rfl rfl h

end Template
end ContentFilter
