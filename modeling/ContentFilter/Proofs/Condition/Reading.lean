import ContentFilter.Condition
import ContentFilter.Proofs.Outcome
/-!
# What conditions are read from

The constructors of conditions, said once and for all as relations: which tokens make which
location, operand and condition.  A constructor succeeds exactly if its relation holds
(`Condition.ofTriple_eq_ok_iff`, `Condition.ofLone_eq_ok_iff`), and everything that is proved about
the conditions that are read goes by cases of these relations.
-/

namespace ContentFilter

variable {b : Builtins} {t left operator right : Token}

/-- The value that a token writes. -/
def Token.scalar? (t : Token) : Option Scalar :=
  match t.kind with
  | .string => some (.string t.lexeme)
  | .number => some (.number t.lexeme)
  | .boolean => some (.boolean (t.lexeme == "true"))
  | _ => none

/-! ## Operands -/

/-- The token names the location. -/
inductive Location.Reads (b : Builtins) (t : Token) : Location → Prop
  | field {f : FieldPath} :
      t.kind = .field → FieldPath.ofText? t.lexeme = some f → Reads b t (.field f)
  | column {c : String} : t.kind = .builtin → b.column? t.lexeme = some c → Reads b t (.column c)

/-- The token stands for the left side of a comparison. -/
inductive Subject.Reads (b : Builtins) (t : Token) : Subject → Prop
  | number : t.kind = .number → Reads b t (.number t.lexeme)
  | boolean : t.kind = .boolean → Reads b t (.boolean (t.lexeme == "true"))
  | location {l : Location} : l.Reads b t → Reads b t (.location l)

/-- The token stands for the right side of a comparison. -/
inductive Operand.Reads (b : Builtins) (t : Token) : Operand → Prop
  | location {l : Location} : l.Reads b t → Reads b t (.location l)
  | string : t.kind = .string → Reads b t (.string t.lexeme)
  | number : t.kind = .number → Reads b t (.number t.lexeme)
  | boolean : t.kind = .boolean → Reads b t (.boolean (t.lexeme == "true"))
  | now : t.kind = .keyword → Reads b t .now
  | list {items : List Scalar} : t.kind = .list →
      List.Forall₂ (fun item v => item.scalar? = some v) t.items items → Reads b t (.list items)

lemma Location.Reads.kind_eq {l : Location} (h : l.Reads b t) :
    t.kind = .field ∨ t.kind = .builtin := by
  cases h with
  | field hk => exact .inl hk
  | column hk => exact .inr hk

lemma Subject.Reads.kind_ne_path {l : Subject} (h : l.Reads b t) : t.kind ≠ .path := by
  cases h with
  | number hk => simp [hk]
  | boolean hk => simp [hk]
  | location hl => rcases hl.kind_eq with hk | hk <;> simp [hk]

/-- Neither a path nor null is an operand on the right. -/
lemma Operand.Reads.kind_ne {v : Operand} (h : v.Reads b t) :
    t.kind ≠ .path ∧ t.kind ≠ .null := by
  cases h with
  | location hl => rcases hl.kind_eq with hk | hk <;> simp [hk]
  | string hk => simp [hk]
  | number hk => simp [hk]
  | boolean hk => simp [hk]
  | now hk => simp [hk]
  | list hk => simp [hk]

lemma Location.fieldOf_eq_ok_iff {f : FieldPath} :
    fieldOf t = .ok f ↔ FieldPath.ofText? t.lexeme = some f := by
  unfold fieldOf
  cases FieldPath.ofText? t.lexeme with
  | none => simp
  | some g => simp

lemma Location.columnOf_eq_ok_iff {c : String} :
    columnOf b t = .ok c ↔ b.column? t.lexeme = some c := by
  unfold columnOf
  cases b.column? t.lexeme with
  | none => simp
  | some d => simp

lemma Location.ofLeft_eq_ok_iff {cause : ConditionCause} {l : Location} :
    ofLeft b cause t = .ok l ↔ l.Reads b t := by
  constructor
  · intro h
    unfold ofLeft at h
    split at h
    · next hk =>
      obtain ⟨f, hf, rfl⟩ := Except.map_eq_ok_iff.1 h
      exact .field hk (fieldOf_eq_ok_iff.1 hf)
    · next hk =>
      obtain ⟨c, hc, rfl⟩ := Except.map_eq_ok_iff.1 h
      exact .column hk (columnOf_eq_ok_iff.1 hc)
    all_goals simp at h
  · rintro (⟨hk, hf⟩ | ⟨hk, hc⟩)
    · rw [ofLeft, hk, fieldOf_eq_ok_iff.2 hf]
      rfl
    · rw [ofLeft, hk, columnOf_eq_ok_iff.2 hc]
      rfl

lemma Subject.ofToken_eq_ok_iff {l : Subject} : ofToken b t = .ok l ↔ l.Reads b t := by
  constructor
  · intro h
    unfold ofToken at h
    split at h
    · next hk => exact Except.ok.inj h ▸ .number hk
    · next hk => exact Except.ok.inj h ▸ .boolean hk
    · obtain ⟨l, hl, rfl⟩ := Except.map_eq_ok_iff.1 h
      exact .location (Location.ofLeft_eq_ok_iff.1 hl)
  · rintro (hk | hk | hl)
    · rw [ofToken, hk]
    · rw [ofToken, hk]
    · have hleft : Location.ofLeft b .leftOperand t = .ok _ := Location.ofLeft_eq_ok_iff.2 hl
      rcases hl with ⟨hk, -⟩ | ⟨hk, -⟩
      all_goals
        rw [ofToken, hk, hleft]
        rfl

lemma Operand.itemOf_eq_ok_iff {v : Scalar} : itemOf t = .ok v ↔ t.scalar? = some v := by
  unfold itemOf Token.scalar?
  cases t.kind <;> simp

lemma Operand.listOf_eq_ok_iff {v : Operand} :
    listOf t = .ok v ↔
      ∃ items, List.Forall₂ (fun item v => item.scalar? = some v) t.items items ∧
        list items = v := by
  simp only [listOf, Except.map_eq_ok_iff, Except.mapM_eq_ok_iff, itemOf_eq_ok_iff]

lemma Operand.ofToken_eq_ok_iff {v : Operand} : ofToken b t = .ok v ↔ v.Reads b t := by
  constructor
  · intro h
    unfold ofToken at h
    split at h
    · next hk =>
      obtain ⟨f, hf, rfl⟩ := Except.map_eq_ok_iff.1 h
      exact .location (.field hk (Location.fieldOf_eq_ok_iff.1 hf))
    · next hk =>
      obtain ⟨c, hc, rfl⟩ := Except.map_eq_ok_iff.1 h
      exact .location (.column hk (Location.columnOf_eq_ok_iff.1 hc))
    · next hk => exact Except.ok.inj h ▸ .string hk
    · next hk => exact Except.ok.inj h ▸ .number hk
    · next hk => exact Except.ok.inj h ▸ .boolean hk
    · next hk => exact Except.ok.inj h ▸ .now hk
    · next hk =>
      obtain ⟨items, hitems, rfl⟩ := listOf_eq_ok_iff.1 h
      exact .list hk hitems
    all_goals simp at h
  · intro h
    cases h with
    | location hl =>
      cases hl with
      | field hk hf =>
        rw [ofToken, hk, Location.fieldOf_eq_ok_iff.2 hf]
        rfl
      | column hk hc =>
        rw [ofToken, hk, Location.columnOf_eq_ok_iff.2 hc]
        rfl
    | string hk => rw [ofToken, hk]
    | number hk => rw [ofToken, hk]
    | boolean hk => rw [ofToken, hk]
    | now hk => rw [ofToken, hk]
    | list hk hitems =>
      rw [ofToken, hk]
      exact listOf_eq_ok_iff.2 ⟨_, hitems, rfl⟩

/-! ## Conditions -/

namespace Condition

variable {c : Condition}

/-- An operand, an operator and an operand make the condition: a comparison with null, a condition
on the path that is on the left or on the right, or else a comparison. -/
inductive Reads (b : Builtins) (left operator right : Token) : Condition → Prop
  | nullity {l : Location} (negated : Bool) :
      right.kind = .null → l.Reads b left → l.hasWildcard = false →
      operator.kind = .operator (.compare (if negated then .ne else .eq)) →
      Reads b left operator right (.nullity l negated)
  | pathLeft {v : Operand} {o : Operator} {locale : Option String} :
      left.kind = .path → right.kind = .string ∨ right.kind = .list → v.Reads b right →
      operator.kind = .operator o → o.objection? v = none → localeOf left = .ok locale →
      Reads b left operator right (.urlPath (.operator o) v locale)
  | pathRight {v : Operand} {r : Relation} {locale : Option String} :
      right.kind = .path → left.kind = .string ∨ left.kind = .list → v.Reads b left →
      operator.kind = .operator (.compare r) → (Operator.compare r).objection? v = none →
      localeOf right = .ok locale →
      Reads b left operator right (.urlPath (.operator (Operator.compare r).swapped) v locale)
  | comparison {l : Subject} {o : Operator} {r : Operand} :
      l.Reads b left → r.Reads b right → operator.kind = .operator o → o.objection? r = none →
      r.hasWildcard = false → (l.hasWildcard = true → r.isLiteral = true) →
      (r = .now → o.family = .comparison) → Reads b left operator right (.comparison l o r)

/-- An operator is that of its token, and it accepts the value. -/
lemma operatorOf_eq_ok_iff {v : Operand} {o : Operator} :
    operatorOf operator t v = .ok o ↔ operator.kind = .operator o ∧ o.objection? v = none := by
  constructor
  · intro h
    unfold operatorOf at h
    split at h
    · next hk =>
      split at h
      · next hv =>
        obtain rfl := Except.ok.inj h
        exact ⟨hk, hv⟩
      · simp at h
    · simp at h
  · rintro ⟨hk, hv⟩
    simp only [operatorOf, hk, hv]

/-- A comparison with null is made of a location and one of two operators. -/
lemma ofNull_eq_ok_iff : ofNull b left operator = .ok c ↔
    ∃ l negated, l.Reads b left ∧ l.hasWildcard = false ∧
      operator.kind = .operator (.compare (if negated then .ne else .eq)) ∧
      c = .nullity l negated := by
  constructor
  · intro h
    unfold ofNull at h
    split at h
    · simp at h
    · obtain ⟨l, hl, h⟩ := Except.bind_eq_ok_iff.1 h
      have hreads := Location.ofLeft_eq_ok_iff.1 hl
      split at h
      · simp at h
      · next hwildcard =>
        rw [Bool.not_eq_true] at hwildcard
        split at h
        · next hk => exact ⟨l, false, hreads, hwildcard, hk, (Except.ok.inj h).symm⟩
        · next hk => exact ⟨l, true, hreads, hwildcard, hk, (Except.ok.inj h).symm⟩
        · simp at h
  · rintro ⟨l, negated, hl, hwildcard, hk, rfl⟩
    have hpath : left.kind ≠ .path := by
      rcases hl.kind_eq with hleft | hleft <;> simp [hleft]
    rw [ofNull, if_neg hpath, Location.ofLeft_eq_ok_iff.2 hl]
    cases negated <;> simp [bind, Except.bind, hwildcard, hk]

/-- A condition on the path is made of a string or a list, an operator that accepts it, and a
path. -/
lemma ofPath_eq_ok_iff {path value : Token} {k : Kind} : ofPath b path operator value k = .ok c ↔
    ∃ v o locale, (value.kind = .string ∨ value.kind = .list) ∧ v.Reads b value ∧
      operator.kind = .operator o ∧ o.objection? v = none ∧ localeOf path = .ok locale ∧
      c = .urlPath k v locale := by
  -- what follows when the value is read, which is done in one of two ways
  have hrest : ∀ v : Operand, (do
      let _ ← operatorOf operator value v
      let locale ← localeOf path
      return urlPath k v locale) = Except.ok c ↔
      ∃ o locale, operator.kind = .operator o ∧ o.objection? v = none ∧
        localeOf path = .ok locale ∧ c = .urlPath k v locale := by
    intro v
    simp only [Except.bind_eq_ok_iff, operatorOf_eq_ok_iff]
    constructor
    · rintro ⟨o, ⟨hk, hv⟩, locale, hlocale, h⟩
      exact ⟨o, locale, hk, hv, hlocale, (Except.ok.inj h).symm⟩
    · rintro ⟨o, locale, hk, hv, hlocale, rfl⟩
      exact ⟨o, ⟨hk, hv⟩, locale, hlocale, rfl⟩
  constructor
  · intro h
    unfold ofPath at h
    split at h
    · next hk =>
      obtain ⟨o, locale, ho, hv, hlocale, rfl⟩ := (hrest _).1 h
      exact ⟨_, o, locale, .inl hk, .string hk, ho, hv, hlocale, rfl⟩
    · next hk =>
      obtain ⟨v, hreads, h⟩ := Except.bind_eq_ok_iff.1 h
      obtain ⟨o, locale, ho, hv, hlocale, rfl⟩ := (hrest v).1 h
      exact ⟨v, o, locale, .inr hk, Operand.ofToken_eq_ok_iff.1 hreads, ho, hv, hlocale, rfl⟩
    · simp [bind, Except.bind] at h
  · rintro ⟨v, o, locale, hk, hreads, h⟩
    have hv := Operand.ofToken_eq_ok_iff.2 hreads
    have hok := (hrest v).2 ⟨o, locale, h⟩
    unfold ofPath
    rcases hk with hk | hk
    · rw [Operand.ofToken, hk] at hv
      obtain rfl := Except.ok.inj hv
      simp only [hk]
      exact hok
    · simp only [hk, hv]
      exact hok

/-- A comparison is made of two operands and an operator. -/
lemma ofComparison_eq_ok_iff : ofComparison b left operator right = .ok c ↔
    ∃ l r o, l.Reads b left ∧ r.Reads b right ∧ operator.kind = .operator o ∧
      o.objection? r = none ∧ r.hasWildcard = false ∧
      (l.hasWildcard = true → r.isLiteral = true) ∧ (r = .now → o.family = .comparison) ∧
      c = .comparison l o r := by
  simp only [ofComparison, Except.bind_eq_ok_iff, Subject.ofToken_eq_ok_iff,
    Operand.ofToken_eq_ok_iff, operatorOf_eq_ok_iff]
  constructor
  · rintro ⟨l, hl, r, hr, o, ⟨hk, hv⟩, h⟩
    split at h
    · simp at h
    · next hright =>
      split at h
      · simp at h
      · next hleft =>
        split at h
        · simp at h
        · next hnow =>
          exact ⟨l, r, o, hl, hr, hk, hv, by simpa using hright, by simpa using hleft,
            by simpa using hnow, (Except.ok.inj h).symm⟩
  · rintro ⟨l, r, o, hl, hr, hk, hv, hright, hleft, hnow, rfl⟩
    refine ⟨l, hl, r, hr, o, ⟨hk, hv⟩, ?_⟩
    rw [if_neg (by simp [hright]), if_neg (by simpa using hleft), if_neg (by simpa using hnow)]

/-- A field that stands alone makes a condition, and nothing else does. -/
theorem ofLone_eq_ok_iff : ofLone t = .ok c ↔
    ∃ f, t.kind = .field ∧ FieldPath.ofText? t.lexeme = some f ∧ c = .presence f := by
  constructor
  · intro h
    unfold ofLone at h
    split at h
    · next hk =>
      obtain ⟨f, hf, rfl⟩ := Except.map_eq_ok_iff.1 h
      exact ⟨f, hk, Location.fieldOf_eq_ok_iff.1 hf, rfl⟩
    all_goals simp at h
  · rintro ⟨f, hk, hf, rfl⟩
    rw [ofLone, hk, Location.fieldOf_eq_ok_iff.2 hf]
    rfl

lemma ofUrlPath_eq_ok_iff : ofUrlPath b left operator right = .ok c ↔
    (left.kind = .path ∧ ofPath b left operator right operator.kind = .ok c) ∨
      (left.kind ≠ .path ∧ (∃ r, operator.kind = .operator (.compare r)) ∧
        ofPath b right operator left operator.kind.swapped = .ok c) := by
  constructor
  · intro h
    unfold ofUrlPath at h
    split at h
    · next hk => exact .inl ⟨hk, h⟩
    · next hk =>
      split at h
      · next r hr => exact .inr ⟨hk, ⟨r, hr⟩, h⟩
      · simp at h
  · rintro (⟨hk, h⟩ | ⟨hk, ⟨r, hr⟩, h⟩)
    · rwa [ofUrlPath, if_pos hk]
    · rw [hr] at h
      simpa only [ofUrlPath, if_neg hk, hr] using h

/-- Three tokens make a condition exactly if they read as one. -/
theorem ofTriple_eq_ok_iff : ofTriple b left operator right = .ok c ↔
    c.Reads b left operator right := by
  constructor
  · intro h
    unfold ofTriple at h
    split at h
    · next hnull =>
      obtain ⟨l, negated, hl, hwildcard, hk, rfl⟩ := ofNull_eq_ok_iff.1 h
      exact .nullity negated hnull hl hwildcard hk
    · split at h
      · next hpath =>
        -- a path on the left takes precedence over one on the right
        obtain ⟨hleft, h⟩ | ⟨hleft, ⟨r, hr⟩, h⟩ := ofUrlPath_eq_ok_iff.1 h
        · obtain ⟨v, o, locale, hvalue, hreads, hk, hv, hlocale, rfl⟩ := ofPath_eq_ok_iff.1 h
          rw [hk]
          exact .pathLeft hleft hvalue hreads hk hv hlocale
        · obtain ⟨v, o, locale, hvalue, hreads, hk, hv, hlocale, rfl⟩ := ofPath_eq_ok_iff.1 h
          obtain rfl := Kind.operator.inj (hk.symm.trans hr)
          rw [hr]
          exact .pathRight (hpath.resolve_left hleft) hvalue hreads hr hv hlocale
      · obtain ⟨l, r, o, hl, hr, hk, hv, hright, hleft, hnow, rfl⟩ := ofComparison_eq_ok_iff.1 h
        exact .comparison hl hr hk hv hright hleft hnow
  · -- the kinds of the operands tell the four cases apart
    intro h
    unfold ofTriple
    cases h with
    | nullity negated hnull hl hwildcard hk =>
      rw [if_pos hnull]
      exact ofNull_eq_ok_iff.2 ⟨_, negated, hl, hwildcard, hk, rfl⟩
    | pathLeft hleft hvalue hreads hk hv hlocale =>
      have hnull : right.kind ≠ .null := by
        rcases hvalue with hvalue | hvalue <;> simp [hvalue]
      rw [if_neg hnull, if_pos (.inl hleft)]
      refine ofUrlPath_eq_ok_iff.2 (.inl ⟨hleft, ?_⟩)
      exact ofPath_eq_ok_iff.2 ⟨_, _, _, hvalue, hreads, hk, hv, hlocale, by rw [hk]⟩
    | pathRight hright hvalue hreads hk hv hlocale =>
      have hnull : right.kind ≠ .null := by simp [hright]
      have hleft : left.kind ≠ .path := by
        rcases hvalue with hvalue | hvalue <;> simp [hvalue]
      rw [if_neg hnull, if_pos (.inr hright)]
      refine ofUrlPath_eq_ok_iff.2 (.inr ⟨hleft, ⟨_, hk⟩, ?_⟩)
      exact ofPath_eq_ok_iff.2 ⟨_, _, _, hvalue, hreads, hk, hv, hlocale, by rw [hk]; rfl⟩
    | comparison hl hr hk hv hright hleft hnow =>
      rw [if_neg hr.kind_ne.2, if_neg (not_or.2 ⟨hl.kind_ne_path, hr.kind_ne.1⟩)]
      exact ofComparison_eq_ok_iff.2 ⟨_, _, _, hl, hr, hk, hv, hright, hleft, hnow, rfl⟩

end Condition
end ContentFilter
