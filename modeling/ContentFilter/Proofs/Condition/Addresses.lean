import ContentFilter.Proofs.Condition.Signs
import ContentFilter.Proofs.Condition.Values
import ContentFilter.Proofs.Sql.Access
/-!
# Where fields are taken from

A field is written to SQL in several ways: as a chain of arrows, or as a call with a JSON path, and
as the value itself, as a row source for its items, or as a test for its presence.  Each of them
mentions the content of the node once (`Template.Uses`), and all of them lead to the place of the
field, or to the object or array that its wildcard ranges over; only the presence of a plain field is
that of the key that is its name (`FieldPath.Addressed`).

So the field can be told from what is written (`FieldPath.addressed`).
-/

namespace ContentFilter

open Sql (Sign Silent silent_cons silent_append accesses accessesFrom codeGlyphs content)
open Access (functions)

namespace Template

variable {Q : String → Prop} {d e : Nat} {pre t post expr right : Template} {a : Access}

/-! ## Templates that do not mention the content -/

/-- The code does not mention the content. -/
def Mute (t : Template) : Prop := ∀ x, .code x ∈ t → Silent (Sql.signs (codeGlyphs x))

@[simp] lemma mute_nil : Mute [] := by simp [Mute]

@[simp] lemma mute_code {x : String} :
    Mute (.code x :: t) ↔ Silent (Sql.signs (codeGlyphs x)) ∧ Mute t := by
  simp [Mute]

@[simp] lemma mute_literal {x : String} : Mute (.literal x :: t) ↔ Mute t := by
  simp [Mute]

@[simp] lemma mute_hole {v : Scalar} : Mute (.hole v :: t) ↔ Mute t := by
  simp [Mute]

@[simp] lemma mute_append : Mute (pre ++ t) ↔ Mute pre ∧ Mute t := by
  simp only [Mute, List.mem_append]
  exact ⟨fun h => ⟨fun x hx => h x (.inl hx), fun x hx => h x (.inr hx)⟩,
    fun h x hx => hx.elim (h.1 x) (h.2 x)⟩

lemma mute_single {x : String} (h : Silent (Sql.signs (codeGlyphs x))) : Mute [.code x] :=
  mute_code.2 ⟨h, mute_nil⟩

/-- Neither the literals nor the placeholders of a template mention the content. -/
lemma Mute.silent_signs (h : t.Mute) (c : Counter) : Silent (t.signs c) := by
  induction t generalizing c with
  | nil => exact List.not_mem_nil
  | cons p t ih =>
    cases p with
    | code x =>
      obtain ⟨hx, ht⟩ := mute_code.1 h
      exact silent_append.2 ⟨hx, ih ht c⟩
    | literal x => exact silent_cons.2 ⟨Sign.noConfusion, ih (mute_literal.1 h) c⟩
    | hole v =>
      -- the name of a placeholder has a digit
      have hname : .word c.name.toList ≠ content := by
        have hcontent : "content".toList.any Char.isDigit = false := by decide
        intro heq
        have hdigit : c.name.toList.any Char.isDigit = true :=
          List.any_eq_true.2 c.exists_digit_mem_name
        rw [Sign.word.inj heq, hcontent] at hdigit
        cases hdigit
      exact silent_cons.2 ⟨Sign.noConfusion,
        silent_cons.2 ⟨hname, ih (mute_hole.1 h) c.succ⟩⟩

/-! ## Templates that mention the content once -/

/-- The template takes one value from the content. -/
def Uses (t : Template) (a : Access) : Prop :=
  ∀ c before vs, Silent vs → accessesFrom before (t.signs c ++ vs) = [a]

lemma Uses.behind (ht : t.Uses a) (hpre : pre.Mute) : (pre ++ t).Uses a := by
  intro c before vs hvs
  rw [signs_append, List.append_assoc,
    Sql.accessesFrom_append_of_silent before (hpre.silent_signs c)]
  exact ht _ _ vs hvs

lemma Uses.append (ht : t.Uses a) (hpost : post.Mute) : (t ++ post).Uses a := by
  intro c before vs hvs
  rw [signs_append, List.append_assoc]
  exact ht c before _ (silent_append.2 ⟨hpost.silent_signs _, hvs⟩)

lemma Uses.code_cons {x : String} (ht : t.Uses a) (hx : Silent (Sql.signs (codeGlyphs x))) :
    Uses (.code x :: t) a :=
  ht.behind (mute_single hx)

lemma uses_contentCall {function : String} (h : function ∈ functions) (argument : String) :
    Uses (Dialect.contentCall function argument) (.call function argument) := by
  intro c before vs hvs
  have hclose : Silent (Sql.signs (codeGlyphs ")") ++ vs) := silent_append.2 ⟨by decide, hvs⟩
  have hcall := Sql.accessesFrom_call h before argument hclose
  simpa [Dialect.contentCall, signs] using hcall

/-! ## Arrows -/

variable {keys : List String} {last : String} {vs : List Sign}

lemma mute_arrows (h : last = "->" ∨ last = "->>") (keys : List String) :
    Mute (Dialect.arrows last keys) := by
  fun_induction Dialect.arrows last keys with
  | case1 => exact mute_nil
  | case2 =>
    rw [mute_code, mute_literal]
    exact ⟨by rcases h with rfl | rfl <;> decide, mute_nil⟩
  | case3 k l r ih =>
    rw [mute_code, mute_literal]
    exact ⟨by decide, ih⟩

/-- The keys of arrows are read back, up to a double arrow or to the end. -/
lemma arrowKeys_signs (h : last = "->" ∧ vs = [] ∨ last = "->>") (c : Counter) (hkeys : keys ≠ []) :
    Sql.arrowKeys ((Dialect.arrows last keys).signs c ++ vs) = keys := by
  have hsingle : Sql.signs (codeGlyphs "->") = [.other '-', .other '>'] := by decide
  have hdouble : Sql.signs (codeGlyphs "->>") = [.other '-', .other '>', .other '>'] := by decide
  fun_induction Dialect.arrows last keys with
  | case1 => exact absurd rfl hkeys
  | case2 k =>
    rcases h with ⟨rfl, rfl⟩ | rfl
    · simp [signs, hsingle, Sql.arrowKeys]
    · simp [signs, hdouble, Sql.arrowKeys]
  | case3 k l r ih => simpa [signs, hsingle, Sql.arrowKeys] using ih (by simp)

/-- A value that is taken by arrows is read as such, up to a double arrow or to the end. -/
lemma accessesFrom_arrows (h : last = "->" ∧ vs = [] ∨ last = "->>") (before : List Sign)
    (c : Counter) (hkeys : keys ≠ []) (hvs : Silent vs) :
    accessesFrom before (signs c (.code "n.content" :: Dialect.arrows last keys) ++ vs) =
      [.arrows keys] := by
  have hcolumn : Sql.signs (codeGlyphs "n.content") = [.word ['n'], .other '.'] ++ [content] := by
    decide
  have hfront : Silent [.word ['n'], .other '.'] := by decide
  have hbehind : Silent ((Dialect.arrows last keys).signs c ++ vs) :=
    silent_append.2 ⟨(mute_arrows (h.imp_left And.left) keys).silent_signs c, hvs⟩
  -- an arrow is no comma, so the content is not the argument of a function
  have hargument : Sql.argument? ((Dialect.arrows last keys).signs c ++ vs) = none := by
    have hcode : ∀ x ∈ ["->", "->>"], ∃ r, Sql.signs (codeGlyphs x) = .other '-' :: r := by
      intro x hx
      simp only [List.mem_cons, List.not_mem_nil, or_false] at hx
      rcases hx with rfl | rfl <;> exact ⟨_, rfl⟩
    match keys, hkeys with
    | [k], _ =>
      obtain ⟨r, hr⟩ := hcode last (by simpa using h.imp_left And.left)
      simp [Dialect.arrows, signs, hr, Sql.argument?]
    | k :: l :: keys, _ =>
      obtain ⟨r, hr⟩ := hcode "->" (by simp)
      simp [Dialect.arrows, signs, hr, Sql.argument?]
  rw [signs, hcolumn, List.append_assoc, List.append_assoc,
    Sql.accessesFrom_append_of_silent before hfront, List.singleton_append, accessesFrom,
    if_pos rfl, Sql.accessesFrom_silent _ hbehind, Sql.accessAt, hargument,
    arrowKeys_signs h c hkeys]
  simp

/-! ## From templates to texts -/

/-- What a well-formed template does with the content can be read off the text it is filled to. -/
lemma Formed.accesses_fill (h : Formed Q d t e) (hQ : ∀ x, Q x → '\'' ∉ x.toList) (s : Sink) :
    accesses (t.fill s).1 = some (accessesFrom [] (t.signs s.counter)) := by
  rw [accesses, Sql.signsOf, glyphs_fill (h.spaced hQ), Option.map_some, h.signs_glyphs]
  rfl

lemma Uses.accesses_fill (ht : t.Uses a) (h : Formed Q d t e) (hQ : ∀ x, Q x → '\'' ∉ x.toList)
    (s : Sink) : accesses (t.fill s).1 = some [a] := by
  have hsigns := ht s.counter [] [] List.not_mem_nil
  rw [List.append_nil] at hsigns
  rw [h.accesses_fill hQ, hsigns]

/-- Without free code and holes, a template has one text. -/
lemma Formed.accesses_text (h : Formed (fun _ => False) d t e) (hvalues : t.values = []) :
    accesses t.text = some (accessesFrom [] (t.signs (.ofStem .default))) := by
  have hfill := h.accesses_fill (fun _ hx => hx.elim) (.ofStem .default)
  rwa [fill_of_values_eq_nil hvalues] at hfill

lemma Uses.accesses_text (ht : t.Uses a) (h : Formed (fun _ => False) d t e)
    (hvalues : t.values = []) : accesses t.text = some [a] := by
  have hfill := ht.accesses_fill h (fun _ hx => hx.elim) (.ofStem .default)
  rwa [fill_of_values_eq_nil hvalues] at hfill

end Template

/-! ## The accesses of a field -/

namespace Dialect

open Template (Uses mute_single uses_contentCall)

variable (d : Dialect) (f : FieldPath)

/-- How the value of a field is taken, as text or, in SQLite, as what it is. -/
def valueAccess : Dialect → FieldPath → Access
  | postgres, f => .arrows f.keys
  | sqlite, f => .call "json_extract" (JsonPath.container f)

/-- How the items of a field are taken. -/
def itemsAccess : Dialect → FieldPath → Access
  | postgres, f => .call "jsonb_path_query" (JsonPath.ofField f)
  | sqlite, f => .call "json_each" (JsonPath.container f)

/-- How it is found out whether a field is present. -/
def presenceAccess : Dialect → FieldPath → Access
  | postgres, f =>
    if f.isPlain then .call "jsonb_exists" f.name
    else .call "jsonb_path_exists" (JsonPath.ofField f)
  | sqlite, f =>
    if f.isPlain then .call "json_type" (JsonPath.along [f.name])
    else if f.wildcard.isSome then itemsAccess sqlite f
    else .call "json_type" (JsonPath.container f)

lemma keys_ne_nil : f.keys ≠ [] := List.cons_ne_nil _ _

lemma uses_extractText : Uses (d.extractText f) (d.valueAccess f) := by
  cases d with
  | postgres =>
    intro c before vs hvs
    exact Template.accessesFrom_arrows (.inr rfl) before c (keys_ne_nil f) hvs
  | sqlite => exact uses_contentCall (by decide) _

lemma accessesFrom_extractJson (c : Counter) :
    accessesFrom [] ((d.extractJson f).signs c) = [d.valueAccess f] := by
  cases d with
  | postgres =>
    have harrows := Template.accessesFrom_arrows (.inl ⟨rfl, rfl⟩) [] c (keys_ne_nil f)
      List.not_mem_nil
    rwa [List.append_nil] at harrows
  | sqlite =>
    have hcall := uses_extractText sqlite f c [] [] List.not_mem_nil
    rwa [List.append_nil] at hcall

lemma accesses_extractText : Sql.accesses (d.extractText f).text = some [d.valueAccess f] :=
  (d.uses_extractText f).accesses_text (Template.formed_extractText d f) (by simp)

lemma accesses_extractJson : Sql.accesses (d.extractJson f).text = some [d.valueAccess f] := by
  rw [(Template.formed_extractJson d f).accesses_text (by simp), d.accessesFrom_extractJson f]

lemma uses_each : Uses (d.each f) (d.itemsAccess f) := by
  cases d with
  | postgres =>
    exact (uses_contentCall (by decide) _).append (mute_single (by decide))
  | sqlite => exact uses_contentCall (by decide) _

lemma uses_presence : Uses (d.presence f) (d.presenceAccess f) := by
  cases d with
  | postgres =>
    by_cases hplain : f.isPlain = true
    · rw [presence, presenceAccess, if_pos hplain, if_pos hplain]
      exact uses_contentCall (by decide) _
    · rw [presence, presenceAccess, if_neg hplain, if_neg hplain]
      exact uses_contentCall (by decide) _
  | sqlite =>
    by_cases hplain : f.isPlain = true
    · rw [presence, presenceAccess, if_pos hplain, if_pos hplain]
      exact (uses_contentCall (by decide) _).append (mute_single (by decide))
    · rw [presence, presenceAccess, if_neg hplain, if_neg hplain]
      split
      · exact ((uses_each sqlite f).append (mute_single (by decide))).code_cons (by decide)
      · exact (uses_contentCall (by decide) _).append (mute_single (by decide))

/-! ## The places of a field -/

variable {f}

/-- The value of a field is taken from its place, and a wildcard is disregarded. -/
lemma address?_valueAccess (h : f.WellFormed) : (d.valueAccess f).address? = some f.container := by
  cases d with
  | postgres => rfl
  | sqlite => exact Access.address?_along (by decide) h.isSegment_keys

lemma address?_itemsAccess_postgres (h : f.WellFormed) :
    (itemsAccess postgres f).address? = some f.address :=
  Access.address?_ofField (by decide) h

lemma address?_itemsAccess_sqlite (h : f.WellFormed) :
    (itemsAccess sqlite f).address? = some f.container :=
  Access.address?_along (by decide) h.isSegment_keys

/-- The presence of a plain field is that of the key that is its name. -/
lemma address?_presenceAccess_plain (h : f.WellFormed) (hplain : f.isPlain = true) :
    (d.presenceAccess f).address? = some ⟨[f.name], none⟩ := by
  cases d with
  | postgres =>
    rw [presenceAccess, if_pos hplain]
    rfl
  | sqlite =>
    rw [presenceAccess, if_pos hplain]
    have hname : ∀ k ∈ [f.name], FieldPath.isSegment k.toList = true := by
      simpa using h.isSegment f.name List.mem_cons_self
    exact Access.address?_along (by decide) hname

lemma address?_presenceAccess_postgres (h : f.WellFormed) (hplain : f.isPlain = false) :
    (presenceAccess postgres f).address? = some f.address := by
  rw [presenceAccess, if_neg (by simp [hplain])]
  exact Access.address?_ofField (by decide) h

lemma address?_presenceAccess_sqlite (h : f.WellFormed) (hplain : f.isPlain = false) :
    (presenceAccess sqlite f).address? = some f.container := by
  rw [presenceAccess, if_neg (by simp [hplain])]
  split
  · exact address?_itemsAccess_sqlite h
  · exact Access.address?_along (by decide) h.isSegment_keys

end Dialect

namespace FieldPath

variable {f g : FieldPath}

/-- What is written for a field, read back, leads to the place of the field. -/
structure Addressed (f : FieldPath) : Prop where
  /-- The value as text is taken from the place, and a wildcard is disregarded. -/
  extractText : ∀ d : Dialect, Sql.addresses (d.extractText f).text = some [f.container]
  extractJson : ∀ d : Dialect, Sql.addresses (d.extractJson f).text = some [f.container]
  /-- PostgreSQL lets the path range over the items, -/
  each_postgres : Sql.addresses (Dialect.each .postgres f).text = some [f.address]
  /-- SQLite the function that is called with it. -/
  each_sqlite : Sql.addresses (Dialect.each .sqlite f).text = some [f.container]
  /-- The presence of a plain field is that of the key that is its name. -/
  presence_plain : f.isPlain = true →
    ∀ d : Dialect, Sql.addresses (d.presence f).text = some [⟨[f.name], none⟩]
  presence_postgres : f.isPlain = false →
    Sql.addresses (Dialect.presence .postgres f).text = some [f.address]
  presence_sqlite : f.isPlain = false →
    Sql.addresses (Dialect.presence .sqlite f).text = some [f.container]
  /-- The path of the field leads to its place. -/
  ofField : JsonPath.readAddress (JsonPath.ofField f).toList = some (f.address, [])

/-- Two fields are written in different ways. -/
structure Distinct (f g : FieldPath) : Prop where
  /-- Their values are, if no wildcard is disregarded, -/
  extractText : f.wildcard = none → g.wildcard = none →
    ∀ d : Dialect, (d.extractText f).text ≠ (d.extractText g).text
  extractJson : f.wildcard = none → g.wildcard = none →
    ∀ d : Dialect, (d.extractJson f).text ≠ (d.extractJson g).text
  /-- and PostgreSQL tells their presence apart, -/
  presence : (Dialect.presence .postgres f).text ≠ (Dialect.presence .postgres g).text
  /-- and their paths. -/
  ofField : JsonPath.ofField f ≠ JsonPath.ofField g

lemma WellFormed.isAddressed (h : f.WellFormed) : f.Addressed where
  extractText d :=
    Sql.addresses_of_accesses (d.accesses_extractText f) (d.address?_valueAccess h)
  extractJson d :=
    Sql.addresses_of_accesses (d.accesses_extractJson f) (d.address?_valueAccess h)
  each_postgres := Sql.addresses_of_accesses
    ((Dialect.uses_each .postgres f).accesses_text (Template.formed_each .postgres f) (by simp))
    (Dialect.address?_itemsAccess_postgres h)
  each_sqlite := Sql.addresses_of_accesses
    ((Dialect.uses_each .sqlite f).accesses_text (Template.formed_each .sqlite f) (by simp))
    (Dialect.address?_itemsAccess_sqlite h)
  presence_plain hplain d := Sql.addresses_of_accesses
    ((d.uses_presence f).accesses_text (Template.formed_presence d f) (by simp))
    (d.address?_presenceAccess_plain h hplain)
  presence_postgres hplain := Sql.addresses_of_accesses
    ((Dialect.uses_presence .postgres f).accesses_text (Template.formed_presence .postgres f)
      (by simp))
    (Dialect.address?_presenceAccess_postgres h hplain)
  presence_sqlite hplain := Sql.addresses_of_accesses
    ((Dialect.uses_presence .sqlite f).accesses_text (Template.formed_presence .sqlite f)
      (by simp))
    (Dialect.address?_presenceAccess_sqlite h hplain)
  ofField := by
    have hread := JsonPath.readAddress_ofField h JsonPath.ended_nil
    rwa [List.append_nil] at hread

lemma container_injective (h : f.container = g.container) (hf : f.wildcard = none)
    (hg : g.wildcard = none) : f = g :=
  address_injective (by rw [address_eq_container hf, address_eq_container hg, h])

/-- A plain field is its name. -/
lemma eq_of_isPlain (hf : f.isPlain = true) (hg : g.isPlain = true) (h : f.name = g.name) :
    f = g := by
  rw [isPlain_iff] at hf hg
  cases f
  cases g
  exact congr (congrArg₂ mk h (hf.1.trans hg.1.symm)) (hf.2.trans hg.2.symm)

/-- PostgreSQL tells fields apart by their presence: a plain field has one key, and any other has
its place. -/
lemma eq_of_presence (hf : f.Addressed) (hg : g.Addressed)
    (h : (Dialect.presence .postgres f).text = (Dialect.presence .postgres g).text) : f = g := by
  have hplaces := congrArg Sql.addresses h
  cases hfplain : f.isPlain <;> cases hgplain : g.isPlain
  · rw [hf.presence_postgres hfplain, hg.presence_postgres hgplain] at hplaces
    exact address_injective (by simpa using hplaces)
  · rw [hf.presence_postgres hfplain, hg.presence_plain hgplain] at hplaces
    simp [address, keys] at hplaces
  · rw [hf.presence_plain hfplain, hg.presence_postgres hgplain] at hplaces
    simp [address, keys] at hplaces
  · rw [hf.presence_plain hfplain, hg.presence_plain hgplain] at hplaces
    exact eq_of_isPlain hfplain hgplain (by simpa using hplaces)

/-- Different fields are written in different ways, as their places are read back. -/
lemma Addressed.distinct (hf : f.Addressed) (hg : g.Addressed) (hne : f ≠ g) : f.Distinct g where
  extractText hfplain hgplain d heq := by
    have hplaces := congrArg Sql.addresses heq
    rw [hf.extractText d, hg.extractText d] at hplaces
    exact hne (container_injective (by simpa using hplaces) hfplain hgplain)
  extractJson hfplain hgplain d heq := by
    have hplaces := congrArg Sql.addresses heq
    rw [hf.extractJson d, hg.extractJson d] at hplaces
    exact hne (container_injective (by simpa using hplaces) hfplain hgplain)
  presence heq := hne (eq_of_presence hf hg heq)
  ofField heq := by
    have hplaces := congrArg (fun path => JsonPath.readAddress path.toList) heq
    simp only [hf.ofField, hg.ofField] at hplaces
    exact hne (address_injective (by simpa using hplaces))

/-- What is written for the field that a text names leads to the place of the field, and it is not
what is written for the field that another text names. -/
theorem addressed {s : String} (h : ofText? s = some f) :
    f.Addressed ∧ ∀ {s' : String} {g : FieldPath}, ofText? s' = some g → s ≠ s' →
      f.Distinct g := by
  have haddressed := (ofText?_eq_some h).1.isAddressed
  refine ⟨haddressed, fun hg hne => haddressed.distinct (ofText?_eq_some hg).1.isAddressed ?_⟩
  rintro rfl
  exact hne (eq_of_ofText? h hg)

/-- A field with a key that needs quotes and a wildcard, and a plain field. -/
theorem addressed_of_quoted_key :
    ∃ f g, ofText? "tags.a-b.*" = some f ∧ ofText? "tags" = some g ∧
      f.address = ⟨["tags", "value", "a-b"], some .any⟩ ∧ f.Addressed ∧ g.Addressed ∧
      f.Distinct g := by
  have hf : ofText? "tags.a-b.*" = some ⟨"tags", ["a-b"], some .any⟩ := by decide +kernel
  have hg : ofText? "tags" = some ⟨"tags", [], none⟩ := by decide +kernel
  exact ⟨_, _, hf, hg, rfl, (addressed hf).1, (addressed hg).1,
    (addressed hf).2 hg (by decide)⟩

end FieldPath
end ContentFilter
