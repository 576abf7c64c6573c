import ContentFilter.Proofs.Condition.Addresses
import ContentFilter.Proofs.Condition.Source
/-!
# Fields with wildcards

A field that a wildcard ends is not a single value, and so it stands in two kinds of conditions only:
alone, or on the left of a literal (`Condition.AsksAbout`).  Such a condition mentions the content
once.  In PostgreSQL it is at the place of the field, wildcard included
(`Condition.exists_uses_postgres`), and in SQLite it is in the function that ranges over the items of
a place (`Condition.exists_uses_sqlite`).
-/

namespace ContentFilter

open Sql (Silent codeGlyphs)
open Template (Uses Mute mute_code mute_append mute_single uses_contentCall)

/-! ## Operators and literals -/

namespace Operator

/-- What is around the two sides of an operator does not mention the content. -/
lemma exists_parts (d : Dialect) (o : Operator) (expr right : Template) :
    ∃ pre mid post : Template, o.template d expr right = pre ++ expr ++ mid ++ right ++ post ∧
      pre.Mute ∧ mid.Mute ∧ post.Mute := by
  have hnil : Mute [] := Template.mute_nil
  cases o with
  | compare r =>
    exact ⟨[], [.code (" " ++ r.symbol ++ " ")], [], by simp [template], hnil,
      mute_single (by cases r <;> decide), hnil⟩
  | member n =>
    exact ⟨[], [.code (" " ++ Dialect.negation n ++ "IN ")], [], by simp [template], hnil,
      mute_single (by cases n <;> decide), hnil⟩
  | like n c =>
    have hlike : Mute [.code (" " ++ Dialect.negation n ++ "LIKE ")] :=
      mute_single (by cases n <;> decide)
    have hilike : Mute [.code (" " ++ Dialect.negation n ++ "ILIKE ")] :=
      mute_single (by cases n <;> decide)
    cases c with
    | false =>
      exact ⟨[], _, [], by cases d <;> simp [template, Dialect.like], hnil, hlike, hnil⟩
    | true =>
      cases d with
      | postgres => exact ⟨[], _, [], by simp [template, Dialect.like], hnil, hilike, hnil⟩
      | sqlite =>
        exact ⟨[], _, [.code " COLLATE NOCASE"], by simp [template, Dialect.like], hnil, hlike,
          mute_single (by decide)⟩
  | regex n c =>
    cases d with
    | postgres =>
      exact ⟨[], [.code (" " ++ (Operator.regex n c).symbol ++ " ")], [],
        by simp [template, Dialect.regex], hnil,
        mute_single (by cases n <;> cases c <;> decide), hnil⟩
    | sqlite =>
      have hword : Mute [.code " REGEXP "] := mute_single (by decide)
      have hcomma : Mute [.code ", "] := mute_single (by decide)
      have hopen : Mute [.code "NOT ("] := mute_single (by decide)
      have hcall : Mute [.code "regexp_i("] := mute_single (by decide)
      have hclose : Mute [.code ")"] := mute_single (by decide)
      cases n <;> cases c
      · exact ⟨[], _, [], by simp [template, Dialect.regex], hnil, hword, hnil⟩
      · exact ⟨_, _, _, by simp [template, Dialect.regex], hcall, hcomma, hclose⟩
      · exact ⟨_, _, _, by simp [template, Dialect.regex], hopen, hword, hclose⟩
      · exact ⟨[.code "NOT (", .code "regexp_i("], _, [.code ")", .code ")"],
          by simp [template, Dialect.regex], mute_append.2 ⟨hopen, hcall⟩, hcomma,
          mute_append.2 ⟨hclose, hclose⟩⟩

variable {d : Dialect} {o : Operator} {expr right : Template} {a : Access}

lemma mute_template (hexpr : expr.Mute) (hright : right.Mute) :
    (o.template d expr right).Mute := by
  obtain ⟨pre, mid, post, heq, hpre, hmid, hpost⟩ := o.exists_parts d expr right
  simp only [heq, mute_append]
  exact ⟨⟨⟨⟨hpre, hexpr⟩, hmid⟩, hright⟩, hpost⟩

lemma uses_template (hexpr : expr.Uses a) (hright : right.Mute) :
    (o.template d expr right).Uses a := by
  obtain ⟨pre, mid, post, heq, hpre, hmid, hpost⟩ := o.exists_parts d expr right
  rw [heq]
  exact (((hexpr.behind hpre).append hmid).append hright).append hpost

end Operator

namespace Operand

variable {v : Operand}

lemma mute_list (items : List Scalar) : Mute (Template.join ", " (items.map fun v => [.hole v])) := by
  induction items with
  | nil => exact Template.mute_nil
  | cons v items ih =>
    cases items with
    | nil => exact Template.mute_hole.2 Template.mute_nil
    | cons w items => exact Template.mute_hole.2 (mute_code.2 ⟨by decide, ih⟩)

/-- Literals do not mention the content. -/
lemma mute_template (d : Dialect) (hv : v.isLiteral = true)
    (hcodes : ∀ x ∈ v.codes, Silent (Sql.signs (codeGlyphs x))) : (v.template d).Mute := by
  cases v with
  | location l => cases hv
  | now => cases hv
  | string s => exact Template.mute_hole.2 Template.mute_nil
  | number n => exact mute_single (hcodes n (by simp [codes]))
  | boolean b => exact mute_single (by cases b <;> decide)
  | list items =>
    exact mute_append.2 ⟨mute_code.2 ⟨by decide, mute_list items⟩, mute_single (by decide)⟩

lemma mute_itemTemplate (d : Dialect) (hv : v.isLiteral = true)
    (hcodes : ∀ x ∈ v.codes, Silent (Sql.signs (codeGlyphs x))) : (v.itemTemplate d).Mute := by
  unfold itemTemplate
  split
  · exact Template.mute_hole.2 Template.mute_nil
  · exact Template.mute_hole.2 Template.mute_nil
  · exact mute_template _ hv hcodes

end Operand

/-! ## Conditions about one field -/

namespace Condition

/-- The condition asks about a field and nothing else: whether it is there, or how its value compares
with a literal. -/
inductive AsksAbout (f : FieldPath) : Condition → Prop
  | presence : AsksAbout f (.presence f)
  | comparison {o : Operator} {v : Operand} :
      v.isLiteral = true → AsksAbout f (.comparison (.location (.field f)) o v)

variable {c : Condition} {f : FieldPath} {o : Operator} {v : Operand}

/-- A condition on the items of a field takes the items, and nothing else. -/
lemma uses_eachTemplate (d : Dialect) (hv : v.isLiteral = true)
    (hcodes : ∀ x ∈ v.codes, Silent (Sql.signs (codeGlyphs x))) :
    Uses (eachTemplate d f o v) (d.itemsAccess f) := by
  have hitem : Mute d.eachItem := by cases d <;> simp [Dialect.eachItem] <;> decide
  have hcondition : Mute (o.template d d.eachItem (v.itemTemplate d)) :=
    Operator.mute_template hitem (v.mute_itemTemplate d hv hcodes)
  exact (((d.uses_each f).code_cons (by decide)).append
    (mute_code.2 ⟨by decide, hcondition⟩)).append (mute_single (by decide))

/-- SQLite takes the items of a field with a wildcard, and the value of any other. -/
lemma uses_sqliteField (hv : v.isLiteral = true)
    (hcodes : ∀ x ∈ v.codes, Silent (Sql.signs (codeGlyphs x))) :
    Uses (sqliteField f o v)
      (if f.wildcard.isSome then Dialect.itemsAccess .sqlite f
      else Dialect.valueAccess .sqlite f) := by
  unfold sqliteField
  split
  · exact uses_eachTemplate .sqlite hv hcodes
  · exact Operator.uses_template (Dialect.uses_extractText .sqlite f)
      (v.mute_template .sqlite hv hcodes)

/-- The access leads to the place of the field, and by the path of the field if it has a wildcard. -/
structure Reaches (a : Access) (f : FieldPath) : Prop where
  address : a.address? = some f.address
  path : f.wildcard.isSome = true → ∃ function rest, a = .call function (JsonPath.ofField f ++ rest)

lemma reaches_call {function predicate : String} (hf : f.WellFormed)
    (hfunction : function ∈ Access.predicateFunctions)
    (hpredicate : predicate.toList.head? = some ' ') :
    Reaches (.call function (JsonPath.ofField f ++ predicate)) f :=
  ⟨Access.address?_ofField_append hfunction hf hpredicate, fun _ => ⟨_, _, rfl⟩⟩

lemma reaches_path {function : String} (hf : f.WellFormed)
    (hfunction : function ∈ Access.pathFunctions ++ Access.predicateFunctions) :
    Reaches (.call function (JsonPath.ofField f)) f :=
  ⟨Access.address?_ofField hfunction hf, fun _ => ⟨function, "", by rw [String.append_empty]⟩⟩

lemma reaches_valueAccess (hf : f.wildcard = none) : Reaches (Dialect.valueAccess .postgres f) f :=
  ⟨by rw [f.address_eq_container hf]; rfl, by simp [hf]⟩

/-- PostgreSQL compares a field with a literal at the place of the field. -/
lemma exists_uses_postgresField (hf : f.WellFormed) (hv : v.isLiteral = true)
    (hcodes : ∀ x ∈ v.codes, Silent (Sql.signs (codeGlyphs x))) :
    ∃ a, Uses (postgresField f o v) a ∧ Reaches a f := by
  have hcompare : ∀ (r : Relation) (literal : String),
      ∃ a, Uses (compareLiteral f r literal) a ∧ Reaches a f := by
    intro r literal
    refine ⟨_, uses_contentCall (by decide) _, ?_⟩
    rw [comparePredicate, String.append_assoc, String.append_assoc, String.append_assoc]
    exact reaches_call hf (by decide) (by simp)
  unfold postgresField
  split
  · exact hcompare _ _
  · exact hcompare _ _
  · exact hcompare _ _
  · next n caseless s =>
    refine ⟨_, (uses_contentCall (by decide) _).code_cons (by cases n <;> decide), ?_⟩
    rw [matchPredicate, String.append_assoc, String.append_assoc, String.append_assoc]
    exact reaches_call hf (by decide) (by simp)
  · cases hv
  · cases hv
  · split
    · exact ⟨_, uses_eachTemplate .postgres hv hcodes, reaches_path hf (by decide)⟩
    · next hwildcard =>
      exact ⟨_, Operator.uses_template (Dialect.uses_extractText .postgres f)
        (v.mute_template .postgres hv hcodes), reaches_valueAccess (by simpa using hwildcard)⟩

/-- In PostgreSQL a condition about a field tells which wildcard the field has, and it is at the place
of the field if there is a wildcard. -/
theorem exists_uses_postgres (hf : f.WellFormed) (hc : c.AsksAbout f)
    (hcodes : ∀ x ∈ c.codes, Silent (Sql.signs (codeGlyphs x))) :
    ∃ a p, Uses (c.template .postgres) a ∧ a.address? = some p ∧ p.wildcard = f.wildcard ∧
      (f.wildcard.isSome = true → Reaches a f) := by
  cases hc with
  | presence =>
    have huses := Dialect.uses_presence .postgres f
    cases hplain : f.isPlain with
    | true =>
      have hnone : f.wildcard = none := (FieldPath.isPlain_iff.1 hplain).2
      exact ⟨_, _, huses, Dialect.address?_presenceAccess_plain .postgres hf hplain, hnone.symm,
        by simp [hnone]⟩
    | false =>
      refine ⟨_, _, huses, Dialect.address?_presenceAccess_postgres hf hplain, rfl, fun _ => ?_⟩
      rw [Dialect.presenceAccess, if_neg (by simp [hplain])]
      exact reaches_path hf (by decide)
  | comparison hv =>
    obtain ⟨a, huses, ha⟩ := exists_uses_postgresField hf hv hcodes
    exact ⟨a, _, huses, ha.address, rfl, fun _ => ha⟩

/-- In SQLite a condition about a field ranges over the items of its place if it has a wildcard, and
only then. -/
theorem exists_uses_sqlite (hc : c.AsksAbout f)
    (hcodes : ∀ x ∈ c.codes, Silent (Sql.signs (codeGlyphs x))) :
    ∃ function argument, Uses (c.template .sqlite) (.call function argument) ∧
      (f.wildcard.isSome = true → function = "json_each" ∧ argument = JsonPath.container f) ∧
      (f.wildcard = none → function ≠ "json_each") := by
  cases hc with
  | presence =>
    have huses := Dialect.uses_presence .sqlite f
    rw [Dialect.presenceAccess] at huses
    split at huses
    · next hplain =>
      have hnone : f.wildcard = none := (FieldPath.isPlain_iff.1 hplain).2
      exact ⟨_, _, huses, by simp [hnone], by simp⟩
    · split at huses
      · next hwildcard => exact ⟨_, _, huses, by simp, fun hnone => by simp [hnone] at hwildcard⟩
      · next hwildcard => exact ⟨_, _, huses, fun h => absurd h hwildcard, by simp⟩
  | @comparison o v hv =>
    have huses := uses_sqliteField (f := f) (o := o) hv hcodes
    split at huses
    · next hwildcard => exact ⟨_, _, huses, by simp, fun hnone => by simp [hnone] at hwildcard⟩
    · next hwildcard => exact ⟨_, _, huses, fun h => absurd h hwildcard, by simp⟩

/-! ## Texts of conditions about one field -/

variable {g : FieldPath} {c' : Condition} {d : Dialect}

/-- The free code of the condition is made of numbers. -/
def HasNumbers (c : Condition) : Prop :=
  ∀ x ∈ c.codes, ∀ a ∈ x.toList, Lexeme.isNumberChar a = true

lemma HasNumbers.silent (h : c.HasNumbers) : ∀ x ∈ c.codes, Silent (Sql.signs (codeGlyphs x)) :=
  fun x hx => Sql.silent_number (h x hx)

/-- What a condition does with the content can be read off its text, if its free code is made of
numbers. -/
lemma HasNumbers.accesses_fill {a : Access} (h : c.HasNumbers) (ha : Uses (c.template d) a)
    (sink : Sink) : Sql.accesses ((c.template d).fill sink).1 = some [a] := by
  have hquote : ∀ x ∈ c.codes, '\'' ∉ x.toList := fun x hx hmem =>
    absurd (h x hx _ hmem) (by decide)
  exact ha.accesses_fill (Template.formed_condition d c hquote) (fun _ hx => hx) sink

/-- The text of a condition about a field with a wildcard heeds the wildcard. -/
structure HeedsWildcard (d : Dialect) (f : FieldPath) (c : Condition) : Prop where
  /-- PostgreSQL mentions the content once, in a call with the path of the field, which ends with the
  wildcard. -/
  postgres : d = .postgres → ∀ sink, ∃ function rest,
    Sql.accesses ((c.template d).fill sink).1 =
        some [.call function (JsonPath.ofField f ++ rest)] ∧
      Sql.addresses ((c.template d).fill sink).1 = some [f.address]
  /-- SQLite does so to range over the items of what the wildcard is behind. -/
  sqlite : d = .sqlite → ∀ sink,
    Sql.accesses ((c.template d).fill sink).1 = some [.call "json_each" (JsonPath.container f)]
  /-- So the value is not taken as it is without the wildcard. -/
  not_extracted : ∀ sink,
    Sql.accesses ((c.template d).fill sink).1 ≠ Sql.accesses (d.extractText f).text ∧
      Sql.accesses ((c.template d).fill sink).1 ≠ Sql.accesses (d.extractJson f).text

lemma AsksAbout.heedsWildcard (hc : c.AsksAbout f) (hf : f.WellFormed) (hnumbers : c.HasNumbers)
    (hwildcard : f.wildcard.isSome = true) : c.HeedsWildcard d f := by
  cases d with
  | postgres =>
    obtain ⟨a, p, ha, -, -, hreaches⟩ := exists_uses_postgres hf hc hnumbers.silent
    obtain ⟨haddress, hpath⟩ := hreaches hwildcard
    obtain ⟨function, rest, rfl⟩ := hpath hwildcard
    have haccess := hnumbers.accesses_fill ha
    refine ⟨fun _ sink => ⟨function, rest, haccess sink, ?_⟩, by simp, fun sink => ?_⟩
    · exact Sql.addresses_of_accesses (haccess sink) haddress
    · rw [haccess, Dialect.accesses_extractText, Dialect.accesses_extractJson]
      simp [Dialect.valueAccess]
  | sqlite =>
    obtain ⟨function, argument, ha, hitems, -⟩ := exists_uses_sqlite hc hnumbers.silent
    obtain ⟨rfl, rfl⟩ := hitems hwildcard
    have haccess := hnumbers.accesses_fill ha
    refine ⟨by simp, fun _ sink => haccess sink, fun sink => ?_⟩
    rw [haccess, Dialect.accesses_extractText, Dialect.accesses_extractJson]
    simp [Dialect.valueAccess]

/-- Conditions about fields with different wildcards have different texts, in SQLite if one of the
fields has none. -/
theorem AsksAbout.fill_ne (hc : c.AsksAbout f) (hc' : c'.AsksAbout g) (hf : f.WellFormed)
    (hg : g.WellFormed) (hnumbers : c.HasNumbers) (hnumbers' : c'.HasNumbers)
    (hne : g.wildcard ≠ f.wildcard) (hd : d = .postgres ∨ g.wildcard = none) (sink sink' : Sink) :
    ((c.template d).fill sink).1 ≠ ((c'.template d).fill sink').1 := by
  intro htext
  have haccesses := congrArg Sql.accesses htext
  cases d with
  | postgres =>
    obtain ⟨a, p, ha, haddress, hwildcard, -⟩ := exists_uses_postgres hf hc hnumbers.silent
    obtain ⟨a', p', ha', haddress', hwildcard', -⟩ := exists_uses_postgres hg hc' hnumbers'.silent
    rw [hnumbers.accesses_fill ha, hnumbers'.accesses_fill ha'] at haccesses
    obtain rfl : a = a' := by simpa using haccesses
    obtain rfl := Option.some.inj (haddress.symm.trans haddress')
    exact hne (hwildcard'.symm.trans hwildcard)
  | sqlite =>
    have hnone : g.wildcard = none := hd.resolve_left (by simp)
    have hsome : f.wildcard.isSome = true := by
      rw [hnone] at hne
      exact Option.isSome_iff_ne_none.2 hne.symm
    obtain ⟨function, argument, ha, hitems, -⟩ := exists_uses_sqlite hc hnumbers.silent
    obtain ⟨function', argument', ha', -, hvalue⟩ := exists_uses_sqlite hc' hnumbers'.silent
    rw [hnumbers.accesses_fill ha, hnumbers'.accesses_fill ha'] at haccesses
    obtain ⟨rfl, -⟩ : function = function' ∧ argument = argument' := by simpa using haccesses
    exact hvalue hnone (hitems hsome).1

end Condition
end ContentFilter
