import ContentFilter.Condition.Template
import ContentFilter.Proofs.Sql.Similar
/-!
# Conditions of one form

Two conditions are alike if they have the same form and the same columns, numbers, booleans and
operators; their strings, the elements of their lists and their locales may differ, and so may
their fields, but for the number of segments and the wildcard.  Conditions that are alike have
similar templates, on both databases (`Condition.Alike.similar`): no string and no name of a field
reaches the code.  SQLite has fields in literals only and no strings at all, so there the literals
are equal if the fields are.
-/

namespace ContentFilter

/-- Fields with equally many segments and the same wildcard; equal fields if `exact`. -/
structure FieldPath.Alike (exact : Prop) (f g : FieldPath) : Prop where
  length_eq : f.segments.length = g.segments.length
  wildcard_eq : f.wildcard = g.wildcard
  eq_of_exact : exact → f = g

/-- Fields that are alike, or one column. -/
inductive Location.Alike (exact : Prop) : Location → Location → Prop
  | field {f g : FieldPath} : f.Alike exact g → Alike exact (.field f) (.field g)
  | column (c : String) : Alike exact (.column c) (.column c)

/-- Subjects that differ in a field only. -/
inductive Subject.Alike (exact : Prop) : Subject → Subject → Prop
  | location {l m : Location} : l.Alike exact m → Alike exact (.location l) (.location m)
  | number (n : String) : Alike exact (.number n) (.number n)
  | boolean (b : Bool) : Alike exact (.boolean b) (.boolean b)

/-- Operands that differ in a field, a string or the elements of a list only. -/
inductive Operand.Alike (exact : Prop) : Operand → Operand → Prop
  | location {l m : Location} : l.Alike exact m → Alike exact (.location l) (.location m)
  | string (s s' : String) : Alike exact (.string s) (.string s')
  | number (n : String) : Alike exact (.number n) (.number n)
  | boolean (b : Bool) : Alike exact (.boolean b) (.boolean b)
  | now : Alike exact .now .now
  | list {vs ws : List Scalar} : vs.length = ws.length → Alike exact (.list vs) (.list ws)

/-- Conditions that differ in fields, strings, elements of lists and locales only. -/
inductive Condition.Alike (exact : Prop) : Condition → Condition → Prop
  | comparison {l m : Subject} {v w : Operand} (o : Operator) :
      l.Alike exact m → v.Alike exact w → Alike exact (.comparison l o v) (.comparison m o w)
  | nullity {l m : Location} (negated : Bool) :
      l.Alike exact m → Alike exact (.nullity l negated) (.nullity m negated)
  | presence {f g : FieldPath} : f.Alike exact g → Alike exact (.presence f) (.presence g)
  | urlPath {v w : Operand} {locale locale' : Option String} (k : Kind) :
      v.Alike exact w → locale.isSome = locale'.isSome →
      Alike exact (.urlPath k v locale) (.urlPath k w locale')

namespace Template.Similar

open Dialect

variable {exact : Prop} {d : Dialect} {f g : FieldPath} {expr expr' right right' : Template}

/-! ## Fields -/

lemma arrows {last : String} {ks ls : List String} (hlength : ks.length = ls.length)
    (heq : exact → ks = ls) : Similar exact (Dialect.arrows last ks) (Dialect.arrows last ls) := by
  induction ks generalizing ls with
  | nil =>
    obtain rfl := List.eq_nil_of_length_eq_zero hlength.symm
    exact .nil
  | cons k ks ih =>
    cases ls with
    | nil => simp at hlength
    | cons l ls =>
      have hhead : exact → k = l := fun h => (List.cons.inj (heq h)).1
      have htail := ih (by simpa using hlength) fun h => (List.cons.inj (heq h)).2
      cases ks with
      | nil =>
        obtain rfl := List.eq_nil_of_length_eq_zero (by simpa using hlength.symm)
        exact code (.cons (.literal hhead) .nil)
      | cons k' ks =>
        cases ls with
        | nil => simp at hlength
        | cons l' ls => exact code (.cons (.literal hhead) htail)

lemma contentCall (function : String) {x y : String} (h : exact → x = y) :
    Similar exact (Dialect.contentCall function x) (Dialect.contentCall function y) :=
  code (.cons (.literal h) (refl _))

lemma keys_length (h : f.Alike exact g) : f.keys.length = g.keys.length := by
  simp [FieldPath.keys, h.length_eq]

lemma extractText (d : Dialect) (h : f.Alike exact g) :
    Similar exact (d.extractText f) (d.extractText g) := by
  cases d with
  | postgres => exact code (arrows (keys_length h) fun he => by rw [h.eq_of_exact he])
  | sqlite => exact contentCall _ fun he => by rw [h.eq_of_exact he]

lemma extractJson (d : Dialect) (h : f.Alike exact g) :
    Similar exact (d.extractJson f) (d.extractJson g) := by
  cases d with
  | postgres => exact code (arrows (keys_length h) fun he => by rw [h.eq_of_exact he])
  | sqlite => exact extractText .sqlite h

lemma each (d : Dialect) (h : f.Alike exact g) : Similar exact (d.each f) (d.each g) := by
  cases d with
  | postgres => exact (contentCall _ fun he => by rw [h.eq_of_exact he]).append (refl _)
  | sqlite => exact contentCall _ fun he => by rw [h.eq_of_exact he]

lemma isPlain_eq (h : f.Alike exact g) : f.isPlain = g.isPlain := by
  have hsegments : f.segments.isEmpty = g.segments.isEmpty := by
    rw [Bool.eq_iff_iff, List.isEmpty_iff_length_eq_zero, List.isEmpty_iff_length_eq_zero,
      h.length_eq]
  rw [FieldPath.isPlain, FieldPath.isPlain, hsegments, h.wildcard_eq]

lemma presence (d : Dialect) (h : f.Alike exact g) :
    Similar exact (d.presence f) (d.presence g) := by
  cases d with
  | postgres =>
    simp only [Dialect.presence, isPlain_eq h]
    split
    · exact contentCall _ fun he => by rw [h.eq_of_exact he]
    · exact contentCall _ fun he => by rw [h.eq_of_exact he]
  | sqlite =>
    simp only [Dialect.presence, isPlain_eq h, h.wildcard_eq]
    split
    · exact (contentCall _ fun he => by rw [h.eq_of_exact he]).append (refl _)
    · split
      · exact (code (each .sqlite h)).append (refl _)
      · exact (contentCall _ fun he => by rw [h.eq_of_exact he]).append (refl _)

/-! ## Operators and operands -/

lemma operator (d : Dialect) (o : Operator) (he : Similar exact expr expr')
    (hr : Similar exact right right') :
    Similar exact (o.template d expr right) (o.template d expr' right') := by
  cases o with
  | compare r => exact he.append (code hr)
  | like n c =>
    cases d with
    | postgres => cases c <;> exact he.append (code hr)
    | sqlite =>
      cases c with
      | false => exact he.append (code hr)
      | true => exact (he.append (code hr)).append (refl _)
  | regex n c =>
    have hcall := ((code (x := "regexp_i(") he).append (code (x := ", ") hr)).append
      (refl [.code ")"])
    have hinfix := he.append (code (x := " REGEXP ") hr)
    cases d with
    | postgres => exact he.append (code hr)
    | sqlite =>
      cases n with
      | false => cases c with
        | false => exact hinfix
        | true => exact hcall
      | true => cases c with
        | false => exact (code hinfix).append (refl _)
        | true => exact (code hcall).append (refl _)
  | member n => exact he.append (code hr)

lemma location (d : Dialect) {l m : Location} (h : l.Alike exact m) :
    Similar exact (l.template d) (m.template d) := by
  cases h with
  | field hf => exact extractText d hf
  | column c => exact refl _

lemma join_holes {vs ws : List Scalar} (h : vs.length = ws.length) :
    Similar exact (join ", " (vs.map fun v => [.hole v]))
      (join ", " (ws.map fun v => [.hole v])) := by
  induction vs generalizing ws with
  | nil =>
    obtain rfl := List.eq_nil_of_length_eq_zero h.symm
    exact .nil
  | cons v vs ih =>
    cases ws with
    | nil => simp at h
    | cons w ws =>
      have htail := ih (by simpa using h)
      cases vs with
      | nil =>
        obtain rfl := List.eq_nil_of_length_eq_zero (by simpa using h.symm)
        exact .cons (.hole v w) .nil
      | cons v' vs =>
        cases ws with
        | nil => simp at h
        | cons w' ws => exact .cons (.hole v w) (code htail)

lemma operand (d : Dialect) {v w : Operand} (h : v.Alike exact w) :
    Similar exact (v.template d) (w.template d) := by
  cases h with
  | location hl => exact location d hl
  | string s s' => exact .cons (.hole _ _) .nil
  | number n => exact refl _
  | boolean b => exact refl _
  | now => exact refl _
  | list hlength => exact (code (join_holes hlength)).append (refl _)

lemma itemOperand (d : Dialect) {v w : Operand} (h : v.Alike exact w) :
    Similar exact (v.itemTemplate d) (w.itemTemplate d) := by
  have hoperand := operand d h
  cases d with
  | postgres => cases h <;> exact hoperand
  | sqlite =>
    cases h with
    | number n => exact refl _
    | boolean b => exact refl _
    | location hl => exact hoperand
    | string s s' => exact hoperand
    | now => exact hoperand
    | list hlength => exact hoperand

/-! ## Conditions -/

lemma eachTemplate (d : Dialect) (o : Operator) {v w : Operand} (hf : f.Alike exact g)
    (hv : v.Alike exact w) :
    Similar exact (Condition.eachTemplate d f o v) (Condition.eachTemplate d g o w) := by
  have hitem := operator d o (refl d.eachItem) (itemOperand d hv)
  exact ((code (each d hf)).append (code hitem)).append (refl _)

/-- In PostgreSQL the strings of a comparison are part of a literal, and so are the fields. -/
lemma postgresField (hexact : ¬exact) (o : Operator) {v w : Operand} (hf : f.Alike exact g)
    (hv : v.Alike exact w) :
    Similar exact (Condition.postgresField f o v) (Condition.postgresField g o w) := by
  -- the predicate is one literal, whatever the two strings are
  have hpredicate : ∀ (function x y : String),
      Similar exact (Dialect.contentCall function x) (Dialect.contentCall function y) :=
    fun function x y => contentCall function fun he => absurd he hexact
  have hother : Similar exact
      (if f.wildcard.isSome then Condition.eachTemplate .postgres f o v
        else o.template .postgres (Dialect.extractText .postgres f) (v.template .postgres))
      (if g.wildcard.isSome then Condition.eachTemplate .postgres g o w
        else o.template .postgres (Dialect.extractText .postgres g) (w.template .postgres)) := by
    rw [hf.wildcard_eq]
    split
    · exact eachTemplate .postgres o hf hv
    · exact operator .postgres o (extractText .postgres hf) (operand .postgres hv)
  cases hv with
  | location hl =>
    cases hl with
    | field hg =>
      cases o with
      | compare r => exact (extractJson .postgres hf).append (code (extractJson .postgres hg))
      | like n c => exact hother
      | regex n c => exact hother
      | member n => exact hother
    | column c => cases o <;> exact hother
  | string s s' =>
    cases o with
    | compare r => exact hpredicate _ _ _
    | like n c => exact hother
    | regex n c => exact code (hpredicate _ _ _)
    | member n => exact hother
  | number n =>
    cases o with
    | compare r => exact hpredicate _ _ _
    | like n c => exact hother
    | regex n c => exact hother
    | member n => exact hother
  | boolean b =>
    cases o with
    | compare r => exact hpredicate _ _ _
    | like n c => exact hother
    | regex n c => exact hother
    | member n => exact hother
  | now => cases o <;> exact (code (extractText .postgres hf)).append (refl _)
  | list hlength => cases o <;> exact hother

lemma sqliteField (o : Operator) {v w : Operand} (hf : f.Alike exact g) (hv : v.Alike exact w) :
    Similar exact (Condition.sqliteField f o v) (Condition.sqliteField g o w) := by
  simp only [Condition.sqliteField, hf.wildcard_eq]
  split
  · exact eachTemplate .sqlite o hf hv
  · exact operator .sqlite o (extractText .sqlite hf) (operand .sqlite hv)

lemma urlPath (d : Dialect) (k : Kind) {v w : Operand} {locale locale' : Option String}
    (hv : v.Alike exact w) (hlocale : locale.isSome = locale'.isSome) :
    Similar exact (Condition.urlPathTemplate d k v locale)
      (Condition.urlPathTemplate d k w locale') := by
  have hrest : Similar exact (Condition.localeTemplate locale)
      (Condition.localeTemplate locale') := by
    cases locale <;> cases locale'
    · exact refl _
    · simp at hlocale
    · simp at hlocale
    · exact code (.cons (.hole _ _) .nil)
  exact ((code (operator d _ (refl _) (operand d hv))).append hrest).append (refl _)

end Template.Similar

/-- Conditions that are alike have similar templates, with equal literals in SQLite if their fields
are equal. -/
theorem Condition.Alike.similar {exact : Prop} {d : Dialect} {c c' : Condition}
    (h : c.Alike exact c') (hexact : exact → d = .sqlite) :
    Template.Similar exact (c.template d) (c'.template d) := by
  cases h with
  | comparison o hl hv =>
    have hright := Template.Similar.operand d hv
    cases hl with
    | location hl =>
      cases hl with
      | field hf =>
        cases d with
        | postgres =>
          have hnot : ¬exact := fun he => absurd (hexact he) (by decide)
          exact .postgresField hnot o hf hv
        | sqlite => exact .sqliteField o hf hv
      | column x => exact .operator d o (.refl _) hright
    | number n => exact .operator d o (.refl _) hright
    | boolean b => exact .operator d o (.refl _) hright
  | nullity n hl => exact (Template.Similar.location d hl).append (.refl _)
  | presence hf => exact .presence d hf
  | urlPath k hv hlocale => exact .urlPath d k hv hlocale

end ContentFilter
