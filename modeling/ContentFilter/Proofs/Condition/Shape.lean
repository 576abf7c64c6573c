import ContentFilter.Condition.Template
import ContentFilter.Proofs.Sql.Connective
import ContentFilter.Proofs.Sql.Placeholder
/-!
# The shape of the text of a condition

What is common to the templates of all conditions.  The code in a template is either fixed, or a
column or a number from outside, which is free.  `Template.Formed` describes the templates that are
well-formed if the free code is: each piece is parted from the next one, each literal is followed
by a delimiter, and the parentheses lead from one depth to another with no connective at depth
zero on the way.
-/

namespace ContentFilter

namespace Sql

/-- The text does not end within a word. -/
def ends (x : String) : Bool := x.toList.getLast?.all fun c => !isWordChar c

/-- The text is code without literals and placeholders that leads from one depth to another. -/
def fixed (d : Nat) (x : String) (e : Nat) : Bool :=
  !x.toList.contains '\'' && quiet x && walk isConnective d (signs (codeGlyphs x)) == some e

end Sql

namespace Template

open Sql

/-- No word goes on with the template. -/
def Opened : Template → Prop
  | .code t :: _ => t.toList.head?.any isDelimiter = true
  | _ => True

/-- The template is well-formed if its free code satisfies `Q`, and leads from one depth to
another. -/
inductive Formed (Q : String → Prop) : Nat → Template → Nat → Prop
  | nil {d : Nat} : Formed Q d [] d
  /-- Fixed code. -/
  | code {d e f : Nat} {x : String} {r : Template} :
      fixed d x e = true → ends x = true ∨ Opened r → Formed Q e r f →
      Formed Q d (.code x :: r) f
  /-- Free code, which is parted from what follows. -/
  | free {d e : Nat} {x : String} {r : Template} :
      Q x → Parted r → Formed Q d r e → Formed Q d (.code x :: r) e
  | literal {d e : Nat} {x : String} {r : Template} :
      Parted r → Formed Q d r e → Formed Q d (.literal x :: r) e
  | hole {d e : Nat} {v : Scalar} {r : Template} :
      Parted r → Formed Q d r e → Formed Q d (.hole v :: r) e

variable {Q : String → Prop} {d e f k : Nat} {t u expr right : Template}

lemma Parted.append (ht : Parted t) (hu : Parted u) : Parted (t ++ u) := by
  cases t with
  | nil => exact hu
  | cons p t => cases p <;> exact ht

lemma Opened.append (ht : Opened t) (hu : Parted u) : Opened (t ++ u) := by
  cases t with
  | nil =>
    cases u with
    | nil => trivial
    | cons p u => cases p <;> first | exact hu | trivial
  | cons p t => cases p <;> exact ht

namespace Formed

lemma append (ht : Formed Q d t e) (hu : Formed Q e u f) (hp : Parted u) :
    Formed Q d (t ++ u) f := by
  induction ht with
  | nil => exact hu
  | code hx hends _ ih => exact .code hx (hends.imp_right fun h => h.append hp) (ih hu)
  | free hx hr _ ih => exact .free hx (hr.append hp) (ih hu)
  | literal hr _ ih => exact .literal (hr.append hp) (ih hu)
  | hole hr _ ih => exact .hole (hr.append hp) (ih hu)

/-- A well-formed template can stand inside of parentheses. -/
lemma shift (h : Formed Q d t e) (k : Nat) : Formed Q (d + k) t (e + k) := by
  induction h with
  | nil => exact .nil
  | code hx hends _ ih =>
    simp only [fixed, Bool.and_eq_true, beq_iff_eq] at hx
    refine .code ?_ hends ih
    simp only [fixed, Bool.and_eq_true, beq_iff_eq]
    exact ⟨hx.1, walk_add hx.2 k⟩
  | free hx hr _ ih => exact .free hx hr ih
  | literal hr _ ih => exact .literal hr ih
  | hole hr _ ih => exact .hole hr ih

end Formed

/-- Fixed code that does not end within a word can stand in front of anything. -/
lemma Formed.ended {x : String} (hx : (fixed d x e && ends x) = true) (ht : Formed Q e t f) :
    Formed Q d (.code x :: t) f := by
  rw [Bool.and_eq_true] at hx
  exact .code hx.1 (.inl hx.2) ht

/-- Code that stands between two parts of a condition. -/
def isInfix (x : String) : Bool :=
  fixed 0 x 0 && ends x && x.toList.head?.any isDelimiter

lemma Formed.joined {x : String} (hx : isInfix x = true) (ht : Formed Q 0 t 0)
    (hu : Formed Q 0 u 0) : Formed Q 0 (t ++ .code x :: u) 0 := by
  rw [isInfix, Bool.and_eq_true] at hx
  exact ht.append (.ended hx.1 hu) hx.2

/-- A well-formed template is closed by a parenthesis. -/
lemma Formed.close (ht : Formed Q d t 1) : Formed Q d (t ++ [.code ")"]) 0 :=
  ht.append (.ended (e := 0) (by decide) .nil) (by decide : isDelimiter ')' = true)

/-! ## The parts of conditions -/

lemma parted_arrows {last : String} (h : last = "->" ∨ last = "->>") (keys : List String) :
    Parted (Dialect.arrows last keys) := by
  match keys with
  | [] => trivial
  | [k] => rcases h with rfl | rfl <;> exact (by decide : isDelimiter '-' = true)
  | k :: l :: r => exact (by decide : isDelimiter '-' = true)

lemma formed_arrows {last : String} (h : last = "->" ∨ last = "->>") (keys : List String) :
    Formed Q 0 (Dialect.arrows last keys) 0 := by
  induction keys with
  | nil => exact .nil
  | cons k keys ih =>
    cases keys with
    | nil =>
      have hlast : (fixed 0 last 0 && ends last) = true := by rcases h with rfl | rfl <;> decide
      exact .ended hlast (.literal trivial .nil)
    | cons l r => exact .ended (e := 0) (by decide) (.literal (parted_arrows h _) ih)

lemma formed_contentCall {function : String} (h : fixed 0 (function ++ "(n.content, ") 1 = true)
    (literal : String) : Formed Q 0 (Dialect.contentCall function literal) 0 := by
  have hends : ends (function ++ "(n.content, ") = true := by
    simp only [ends, String.toList_append]
    rw [List.getLast?_append_of_ne_nil _ (by decide)]
    decide
  exact .code h (.inl hends) (.literal (by decide : isDelimiter ')' = true)
    (.ended (e := 0) (by decide) .nil))

lemma formed_extractText (d : Dialect) (f : FieldPath) : Formed Q 0 (d.extractText f) 0 := by
  cases d with
  | postgres =>
    have hopened : Opened (Dialect.arrows "->>" f.keys) := (by decide : isDelimiter '-' = true)
    exact .code (e := 0) (by decide) (.inr hopened) (formed_arrows (.inr rfl) _)
  | sqlite => exact formed_contentCall (by decide) _

lemma formed_extractJson (d : Dialect) (f : FieldPath) : Formed Q 0 (d.extractJson f) 0 := by
  cases d with
  | postgres =>
    have hopened : Opened (Dialect.arrows "->" f.keys) := (by decide : isDelimiter '-' = true)
    exact .code (e := 0) (by decide) (.inr hopened) (formed_arrows (.inl rfl) _)
  | sqlite => exact formed_contentCall (by decide) _

lemma formed_each (d : Dialect) (f : FieldPath) : Formed Q 0 (d.each f) 0 := by
  cases d with
  | postgres =>
    exact (formed_contentCall (by decide) _).append (.ended (e := 0) (by decide) .nil)
      (by decide : isDelimiter ' ' = true)
  | sqlite => exact formed_contentCall (by decide) _

lemma formed_eachItem (d : Dialect) : Formed Q 0 d.eachItem 0 := by
  cases d with
  | postgres => exact .ended (e := 0) (by decide) (.literal trivial .nil)
  | sqlite => exact .code (e := 0) (by decide) (.inr trivial) .nil

lemma formed_presence (d : Dialect) (f : FieldPath) : Formed Q 0 (d.presence f) 0 := by
  have hnull : Formed Q 0 [.code " IS NOT NULL"] 0 :=
    .code (e := 0) (by decide) (.inr trivial) .nil
  cases d with
  | postgres =>
    simp only [Dialect.presence]
    split
    · exact formed_contentCall (by decide) _
    · exact formed_contentCall (by decide) _
  | sqlite =>
    simp only [Dialect.presence]
    split
    · exact (formed_contentCall (by decide) _).append hnull (by decide : isDelimiter ' ' = true)
    · split
      · exact (Formed.ended (e := 1) (by decide) ((formed_each _ f).shift 1)).close
      · exact (formed_contentCall (by decide) _).append hnull (by decide : isDelimiter ' ' = true)

lemma formed_like (d : Dialect) (n c : Bool) (he : Formed Q 0 expr 0) (hr : Formed Q 0 right 0) :
    Formed Q 0 (d.like expr n c right) 0 := by
  have hlike := he.joined (by cases n <;> decide : isInfix (" " ++ Dialect.negation n ++ "LIKE "))
    hr
  have hilike := he.joined
    (by cases n <;> decide : isInfix (" " ++ Dialect.negation n ++ "ILIKE ")) hr
  cases d with
  | postgres => cases c with
    | false => exact hlike
    | true => exact hilike
  | sqlite => cases c with
    | false => exact hlike
    | true =>
      exact hlike.append (.code (e := 0) (by decide) (.inr trivial) .nil)
        (by decide : isDelimiter ' ' = true)

lemma formed_regex (d : Dialect) (n c : Bool) (he : Formed Q 0 expr 0)
    (hr : Formed Q 0 right 0) : Formed Q 0 (d.regex expr n c right) 0 := by
  cases d with
  | postgres =>
    exact he.joined (by cases n <;> cases c <;> decide :
      isInfix (" " ++ (Operator.regex n c).symbol ++ " ")) hr
  | sqlite =>
    have hcall : Formed Q 0
        (.code "regexp_i(" :: expr ++ .code ", " :: right ++ [.code ")"]) 0 := by
      refine Formed.close (.append (.ended (e := 1) (by decide) (he.shift 1))
        (.ended (e := 1) (by decide) (hr.shift 1)) ?_)
      exact (by decide : isDelimiter ',' = true)
    have hfound : Formed Q 0
        (if c then .code "regexp_i(" :: expr ++ .code ", " :: right ++ [.code ")"]
        else expr ++ .code " REGEXP " :: right) 0 := by
      split
      · exact hcall
      · exact he.joined (by decide) hr
    simp only [Dialect.regex]
    split
    · exact (Formed.ended (e := 1) (by decide) (hfound.shift 1)).close
    · exact hfound

lemma formed_operator (d : Dialect) (o : Operator) (he : Formed Q 0 expr 0)
    (hr : Formed Q 0 right 0) : Formed Q 0 (o.template d expr right) 0 := by
  cases o with
  | compare r => exact he.joined (by cases r <;> decide : isInfix (" " ++ r.symbol ++ " ")) hr
  | like n c => exact formed_like d n c he hr
  | regex n c => exact formed_regex d n c he hr
  | member n =>
    exact he.joined (by cases n <;> decide : isInfix (" " ++ Dialect.negation n ++ "IN ")) hr

end Template

/-! ## Free code -/

/-- The columns of a location. -/
def Location.codes : Location → List String
  | field _ => []
  | column c => [c]

/-- The columns and numbers of a subject. -/
def Subject.codes : Subject → List String
  | location l => l.codes
  | number n => [n]
  | boolean _ => []

/-- The columns and numbers of an operand. -/
def Operand.codes : Operand → List String
  | location l => l.codes
  | number n => [n]
  | _ => []

/-- The columns and numbers of a condition.  These are the only texts from outside that may become
code. -/
def Condition.codes : Condition → List String
  | comparison l _ r => l.codes ++ r.codes
  | nullity l _ => l.codes
  | presence _ => []
  | urlPath _ v _ => v.codes

namespace Template

open Sql

variable {Q : String → Prop}

lemma formed_free {x : String} (h : Q x) : Formed Q 0 [.code x] 0 := .free h trivial .nil

lemma formed_bool (b : Bool) : Formed Q 0 [.code (Scalar.ofBool b)] 0 :=
  .code (e := 0) (by cases b <;> decide) (.inr trivial) .nil

lemma formed_location (d : Dialect) (l : Location) (h : ∀ x ∈ l.codes, Q x) :
    Formed Q 0 (l.template d) 0 := by
  cases l with
  | field f => exact formed_extractText d f
  | column c => exact formed_free (h c (by simp [Location.codes]))

lemma formed_join_holes (items : List Scalar) :
    Formed Q 0 (join ", " (items.map fun v => [.hole v])) 0 := by
  induction items with
  | nil => exact .nil
  | cons v items ih =>
    cases items with
    | nil => exact .hole trivial .nil
    | cons w items =>
      exact .hole (by decide : isDelimiter ',' = true) (.ended (e := 0) (by decide) ih)

lemma formed_operand (d : Dialect) (v : Operand) (h : ∀ x ∈ v.codes, Q x) :
    Formed Q 0 (v.template d) 0 := by
  cases v with
  | location l => exact formed_location d l h
  | string s => exact .hole trivial .nil
  | number n => exact formed_free (h n (by simp [Operand.codes]))
  | boolean b => exact formed_bool b
  | now => exact .ended (e := 0) (by cases d <;> decide) .nil
  | list items =>
    exact (Formed.ended (e := 1) (by decide) ((formed_join_holes items).shift 1)).close

lemma formed_itemOperand (d : Dialect) (v : Operand) (h : ∀ x ∈ v.codes, Q x) :
    Formed Q 0 (v.itemTemplate d) 0 := by
  unfold Operand.itemTemplate
  split
  · exact .hole trivial .nil
  · exact .hole trivial .nil
  · exact formed_operand _ _ h

lemma formed_eachTemplate (d : Dialect) (f : FieldPath) (o : Operator) (v : Operand)
    (h : ∀ x ∈ v.codes, Q x) : Formed Q 0 (Condition.eachTemplate d f o v) 0 := by
  have hsource : Formed Q 0 (.code "EXISTS (SELECT 1 FROM " :: d.each f) 1 :=
    .ended (e := 1) (by decide) ((formed_each d f).shift 1)
  have hitem := (formed_operator d o (formed_eachItem d) (formed_itemOperand d v h)).shift 1
  refine Formed.close (hsource.append (.ended (e := 1) (by decide) hitem) ?_)
  exact (by decide : isDelimiter ' ' = true)

lemma formed_postgresField (f : FieldPath) (o : Operator) (v : Operand) (h : ∀ x ∈ v.codes, Q x) :
    Formed Q 0 (Condition.postgresField f o v) 0 := by
  unfold Condition.postgresField
  -- three sorts of literals, a regular expression, the time, another field, and all the rest
  split
  · exact formed_contentCall (by decide) _
  · exact formed_contentCall (by decide) _
  · exact formed_contentCall (by decide) _
  · next n _ _ =>
    exact .ended (e := 0) (by cases n <;> decide) (formed_contentCall (by decide) _)
  · have hcast : Formed Q 0 (.code "(" :: Dialect.extractText .postgres f) 1 :=
      .ended (e := 1) (by decide) ((formed_extractText .postgres f).shift 1)
    have hnow : ∀ r : Relation,
        Formed Q 1 [.code (")::timestamptz " ++ r.symbol ++ " " ++ Dialect.now .postgres)] 0 ∧
          Parted [.code (")::timestamptz " ++ r.symbol ++ " " ++ Dialect.now .postgres)] := by
      intro r
      cases r <;> exact ⟨.ended (e := 0) (by decide) .nil, (by decide : isDelimiter ')' = true)⟩
    exact hcast.append (hnow _).1 (hnow _).2
  · next r g =>
    exact (formed_extractJson .postgres f).joined
      (by cases r <;> decide : isInfix (" " ++ r.symbol ++ " ")) (formed_extractJson .postgres g)
  · split
    · exact formed_eachTemplate _ _ _ _ h
    · exact formed_operator _ _ (formed_extractText _ _) (formed_operand _ _ h)

lemma formed_sqliteField (f : FieldPath) (o : Operator) (v : Operand) (h : ∀ x ∈ v.codes, Q x) :
    Formed Q 0 (Condition.sqliteField f o v) 0 := by
  unfold Condition.sqliteField
  split
  · exact formed_eachTemplate _ _ _ _ h
  · exact formed_operator _ _ (formed_extractText _ _) (formed_operand _ _ h)

lemma formed_urlPath (d : Dialect) (k : Kind) (v : Operand) (locale : Option String)
    (h : ∀ x ∈ v.codes, Q x) : Formed Q 0 (Condition.urlPathTemplate d k v locale) 0 := by
  have hpath : Formed Q 0 [.code "up.path"] 0 := .code (e := 0) (by decide) (.inr trivial) .nil
  have hmatch := (formed_operator d (k.operator?.getD (.compare .eq)) hpath
    (formed_operand d v h)).shift 1
  have hlocale : Formed Q 1 (Condition.localeTemplate locale) 1 ∧
      Parted (Condition.localeTemplate locale) := by
    cases locale with
    | none => exact ⟨.nil, trivial⟩
    | some l =>
      exact ⟨.ended (e := 1) (by decide) (.hole trivial .nil), (by decide : isDelimiter ' ' = true)⟩
  have hopen : Formed Q 0 (.code ("EXISTS (SELECT 1 FROM " ++ d.table "urlpaths" ++
      " up WHERE up.node = n.node AND up.inactive IS NULL AND ") ::
      (k.operator?.getD (.compare .eq)).template d [.code "up.path"] (v.template d)) 1 :=
    .ended (e := 1) (by cases d <;> decide) hmatch
  exact (hopen.append hlocale.1 hlocale.2).close

/-- The template of a condition is well-formed if its columns and numbers are. -/
theorem formed_condition (d : Dialect) (c : Condition) (h : ∀ x ∈ c.codes, Q x) :
    Formed Q 0 (c.template d) 0 := by
  cases c with
  | comparison l o r =>
    have hl : ∀ x ∈ l.codes, Q x := fun x hx => h x (List.mem_append_left _ hx)
    have hr : ∀ x ∈ r.codes, Q x := fun x hx => h x (List.mem_append_right _ hx)
    have hright := formed_operand d r hr
    cases l with
    | location l =>
      cases l with
      | field f =>
        cases d with
        | postgres => exact formed_postgresField f o r hr
        | sqlite => exact formed_sqliteField f o r hr
      | column x => exact formed_operator d o (formed_free (hl x (by simp [Subject.codes,
          Location.codes]))) hright
    | number n => exact formed_operator d o (formed_free (hl n (by simp [Subject.codes]))) hright
    | boolean b => exact formed_operator d o (formed_bool b) hright
  | nullity l negated =>
    have hnull : Formed Q 0 [.code (" IS " ++ Dialect.negation negated ++ "NULL")] 0 :=
      .code (e := 0) (by cases negated <;> decide) (.inr trivial) .nil
    exact (formed_location d l h).append hnull (by cases negated <;> exact (by decide :
      isDelimiter ' ' = true))
  | presence f => exact formed_presence d f
  | urlPath k v locale => exact formed_urlPath d k v locale h

end Template
end ContentFilter
