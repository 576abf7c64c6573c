import ContentFilter.Options
import ContentFilter.Proofs.Json.Strings
import ContentFilter.Proofs.Text.Cutting
import ContentFilter.Proofs.Outcome
/-!
# Builtins from the options

Builtins are given in two ways, as specs and in a JSON object, and both are put together in order: a
later spec takes precedence over an earlier one, and all specs over the JSON object.  What a name
stands for is said here without any table (`Options.Resolves`), and the first broken spec is what
the options are refused for.  So a table of builtins can be given in either way, or in both with the
JSON object overridden, and it makes no difference to what is compiled
(`Options.builtins_overridden_in_order`).
-/

namespace ContentFilter

/-! ## Specs -/

namespace Builtins

/-- The spec has the parts in front of and behind its first equals sign. -/
def SplitsAt (spec : String) (left right : List Char) : Prop :=
  spec.toList = left ++ '=' :: right ∧ '=' ∉ left

/-- The spec gives the name the column: they are what is left of its parts without the blanks at
the ends. -/
def Writes (spec name column : String) : Prop :=
  ∃ left right, SplitsAt spec left right ∧ name.toList = Text.trim left ∧
    column.toList = Text.trim right

/-- There is no equals sign in the spec, or nothing but blanks on one of its sides. -/
def IsBroken (spec : String) : Prop :=
  '=' ∉ spec.toList ∨ ∃ left right, SplitsAt spec left right ∧
    ((∀ c ∈ left, Text.isBlank c = true) ∨ ∀ c ∈ right, Text.isBlank c = true)

variable {spec name column : String} {left right : List Char} {specs : List String}
  {b t : Builtins} {e : CommandError}

lemma SplitsAt.cut (h : SplitsAt spec left right) :
    spec.toList.takeWhile (· ≠ '=') = left ∧ spec.toList.dropWhile (· ≠ '=') = '=' :: right := by
  rw [h.1]
  refine Text.span_append (fun c hc => ?_) (by simp)
  simpa using fun heq : c = '=' => h.2 (heq ▸ hc)

lemma exists_splitsAt (h : '=' ∈ spec.toList) : ∃ left right, SplitsAt spec left right := by
  have hcut := List.takeWhile_append_dropWhile (p := (· ≠ '=')) (l := spec.toList)
  have hleft : '=' ∉ spec.toList.takeWhile (· ≠ '=') := fun hmem => by
    simpa using List.mem_takeWhile_imp hmem
  cases hright : spec.toList.dropWhile (· ≠ '=') with
  | nil =>
    rw [hright, List.append_nil] at hcut
    rw [hcut] at hleft
    exact absurd h hleft
  | cons c right =>
    have hc := Text.head?_dropWhile (· ≠ '=') spec.toList c (by rw [hright]; rfl)
    obtain rfl : c = '=' := by simpa using hc
    exact ⟨_, right, by rw [← hright, hcut], hleft⟩

/-- The first equals sign stands in one place. -/
lemma SplitsAt.unique {left' right' : List Char} (h : SplitsAt spec left right)
    (h' : SplitsAt spec left' right') : left = left' ∧ right = right' := by
  obtain ⟨hleft, hright⟩ := h.cut
  obtain ⟨hleft', hright'⟩ := h'.cut
  exact ⟨hleft.symm.trans hleft', (List.cons.inj (hright.symm.trans hright')).2⟩

lemma SplitsAt.isBroken_iff (h : SplitsAt spec left right) :
    IsBroken spec ↔ Text.trim left = [] ∨ Text.trim right = [] := by
  rw [Text.trim_eq_nil_iff, Text.trim_eq_nil_iff]
  constructor
  · rintro (hsign | ⟨left', right', h', hblank⟩)
    · exact absurd (by rw [h.1]; simp) hsign
    · obtain ⟨rfl, rfl⟩ := h.unique h'
      exact hblank
  · exact fun hblank => .inr ⟨left, right, h, hblank⟩

lemma SplitsAt.writes_iff (h : SplitsAt spec left right) : Writes spec name column ↔
    name = String.ofList (Text.trim left) ∧ column = String.ofList (Text.trim right) := by
  have hof : ∀ {s : String} {cs : List Char}, s = String.ofList cs ↔ s.toList = cs := fun {s cs} =>
    ⟨fun hs => by rw [hs, String.toList_ofList], fun hs => by rw [← hs, String.ofList_toList]⟩
  rw [hof, hof]
  constructor
  · rintro ⟨left', right', h', hname, hcolumn⟩
    obtain ⟨rfl, rfl⟩ := h.unique h'
    exact ⟨hname, hcolumn⟩
  · rintro ⟨hname, hcolumn⟩
    exact ⟨left, right, h, hname, hcolumn⟩

lemma SplitsAt.ofSpec_eq (h : SplitsAt spec left right) : ofSpec spec =
    if Text.trim left = [] ∨ Text.trim right = [] then .error (.invalidBuiltin spec)
    else .ok (String.ofList (Text.trim left), String.ofList (Text.trim right)) := by
  obtain ⟨hleft, hright⟩ := h.cut
  simp only [ofSpec, hleft, hright, Bool.or_eq_true, List.isEmpty_iff]

lemma ofSpec_of_notMem (h : '=' ∉ spec.toList) : ofSpec spec = .error (.invalidBuiltin spec) := by
  have hright : spec.toList.dropWhile (· ≠ '=') = [] :=
    List.dropWhile_eq_nil_iff.2 fun c hc => by simpa using fun heq : c = '=' => h (heq ▸ hc)
  simp only [ofSpec, hright]

/-- A spec that is not broken gives one name one column. -/
lemma ofSpec_eq_ok_iff {entry : String × String} :
    ofSpec spec = .ok entry ↔ ¬IsBroken spec ∧ Writes spec entry.1 entry.2 := by
  by_cases hsign : '=' ∈ spec.toList
  · obtain ⟨left, right, h⟩ := exists_splitsAt hsign
    rw [h.ofSpec_eq, h.isBroken_iff, h.writes_iff]
    split_ifs with hbroken
    · simp [hbroken]
    · rw [Except.ok.injEq, Prod.ext_iff, and_iff_right hbroken, eq_comm, @eq_comm _ entry.2]
  · have hbroken : IsBroken spec := .inl hsign
    simp [ofSpec_of_notMem hsign, hbroken]

/-- A broken spec is what it is refused for. -/
lemma ofSpec_eq_error_iff : ofSpec spec = .error e ↔ IsBroken spec ∧ e = .invalidBuiltin spec := by
  by_cases hsign : '=' ∈ spec.toList
  · obtain ⟨left, right, h⟩ := exists_splitsAt hsign
    rw [h.ofSpec_eq, h.isBroken_iff]
    split_ifs with hbroken
    · rw [Except.error.injEq, and_iff_right hbroken, eq_comm]
    · simp [hbroken]
  · have hbroken : IsBroken spec := .inl hsign
    rw [ofSpec_of_notMem hsign, Except.error.injEq, and_iff_right hbroken, eq_comm]

lemma exists_ofSpec_iff : (∃ entry, ofSpec spec = .ok entry) ↔ ¬IsBroken spec := by
  cases h : ofSpec spec with
  | error e => simp [(ofSpec_eq_error_iff.1 h).1]
  | ok entry => simp [(ofSpec_eq_ok_iff.1 h).1]

/-- The specs are refused for the first broken one. -/
lemma addSpecs_eq_error_iff : addSpecs b specs = .error e ↔ ∃ before spec behind,
    specs = before ++ spec :: behind ∧ (∀ s ∈ before, ¬IsBroken s) ∧ IsBroken spec ∧
      e = .invalidBuiltin spec := by
  simp only [addSpecs, Except.bind_eq_error_iff, Except.mapM_eq_error_iff, ofSpec_eq_error_iff,
    exists_ofSpec_iff]
  constructor
  · rintro (h | ⟨entries, -, h⟩)
    · exact h
    · cases h
  · exact .inl

/-- What a name stands for is told by the last spec for it, or else by what there was before. -/
lemma column?_addSpecs (h : addSpecs b specs = .ok t) : t.column? name = some column ↔
    LastOf (Writes · name column) (fun spec => ∃ c, Writes spec name c) specs ∨
      (∀ spec ∈ specs, ¬∃ c, Writes spec name c) ∧ b.column? name = some column := by
  obtain ⟨entries, hentries, ht⟩ := Except.bind_eq_ok_iff.1 h
  obtain rfl := Except.ok.inj ht
  have hwrites : ∀ {spec entry}, ofSpec spec = .ok entry →
      ∀ n c, Writes spec n c ↔ entry = (n, c) := by
    intro spec entry hentry n c
    obtain ⟨-, left, right, hsplit, hname, hcolumn⟩ := ofSpec_eq_ok_iff.1 hentry
    rw [hsplit.writes_iff, ← hname, ← hcolumn, String.ofList_toList, String.ofList_toList,
      Prod.ext_iff, eq_comm, @eq_comm _ entry.2]
  have hnames : ∀ spec entry, ofSpec spec = .ok entry →
      ((∃ c, Writes spec name c) ↔ entry.1 = name) := fun spec entry hentry => by
    simp only [hwrites hentry, Prod.ext_iff, exists_and_left, exists_eq', and_true]
  obtain ⟨hlast, hnone⟩ := lastOf_congr (Except.mapM_eq_ok_iff.1 hentries)
    (fun spec entry hentry => hwrites hentry name column) hnames
  rw [column?, Table.find?_insertAll_eq_some_iff, hlast, hnone]
  rfl

/-- A member of a JSON object is an entry if its value is a string. -/
lemma ofMember_eq_ok_iff {v : Json} {entry : String × String} :
    ofMember name v = .ok entry ↔ (name, v) = (entry.1, .string entry.2) := by
  cases v with
  | string s => simp [ofMember, Prod.ext_iff, eq_comm]
  | _ => simp [ofMember]

lemma exists_mapM_ofMember {members : List (String × Json)}
    (h : ∀ e ∈ members, ∃ column, e.2 = .string column) :
    ∃ entries, members.mapM (fun e => ofMember e.1 e.2) = .ok entries := by
  cases hmap : members.mapM fun e => ofMember e.1 e.2 with
  | ok entries => exact ⟨entries, rfl⟩
  | error e =>
    obtain ⟨member, hmember, herror⟩ := Except.exists_of_mapM_eq_error hmap
    obtain ⟨column, hcolumn⟩ := h member hmember
    rw [hcolumn] at herror
    cases herror

/-- What a name stands for is told by the last member with the name. -/
lemma column?_ofMembers {members : List (String × Json)} {entries : List (String × String)}
    (h : members.mapM (fun e => ofMember e.1 e.2) = .ok entries) :
    column? (Table.ofList entries) name = some column ↔
      LastOf (· = (name, .string column)) (·.1 = name) members := by
  have hmember : ∀ (e : String × Json) (entry : String × String), ofMember e.1 e.2 = .ok entry →
      (e = (name, .string column) ↔ entry = (name, column)) := by
    intro e entry hentry
    rw [show e = (entry.1, .string entry.2) from ofMember_eq_ok_iff.1 hentry]
    simp [Prod.ext_iff]
  have hname : ∀ (e : String × Json) (entry : String × String), ofMember e.1 e.2 = .ok entry →
      (e.1 = name ↔ entry.1 = name) := by
    intro e entry hentry
    rw [show e = (entry.1, .string entry.2) from ofMember_eq_ok_iff.1 hentry]
  have hlast := (lastOf_congr (Except.mapM_eq_ok_iff.1 h) hmember hname).1
  rw [hlast, column?, Table.ofList, Table.find?_insertAll_eq_some_iff, Table.find?_empty]
  simp

end Builtins

/-! ## Options -/

namespace Options

open Builtins

variable {o o' : Options} {d : Dialect} {b t m : Builtins} {name column : String}

/-- The JSON text, if there is one, is that of an object whose values are strings. -/
def JsonOfStrings (o : Options) : Prop :=
  ∀ text ∈ o.builtinsJson, ∃ members, Json.read? text = some (.object members) ∧
    ∀ e ∈ members, ∃ column, e.2 = .string column

/-- The JSON object gives the name the column. -/
def JsonColumn (o : Options) (name column : String) : Prop :=
  ∃ text ∈ o.builtinsJson, ∃ members, Json.read? text = some (.object members) ∧
    LastOf (· = (name, .string column)) (·.1 = name) members

/-- The name stands for the column: that of the last spec for it, or that of the JSON object if
there is no such spec. -/
def Resolves (o : Options) (name column : String) : Prop :=
  LastOf (Writes · name column) (fun spec => ∃ c, Writes spec name c) o.builtins ∨
    (∀ spec ∈ o.builtins, ¬∃ c, Writes spec name c) ∧ o.JsonColumn name column

/-- The builtins of a JSON object are its members. -/
lemma exists_jsonBuiltins (h : o.JsonOfStrings) : ∃ b, o.jsonBuiltins = .ok b ∧
    ∀ name column, b.column? name = some column ↔ o.JsonColumn name column := by
  cases hjson : o.builtinsJson with
  | none =>
    refine ⟨.empty, by rw [jsonBuiltins, hjson], fun name column => ?_⟩
    simp [JsonColumn, hjson, column?]
  | some text =>
    obtain ⟨members, hread, hstrings⟩ := h text hjson
    obtain ⟨entries, hentries⟩ := exists_mapM_ofMember hstrings
    refine ⟨Table.ofList entries, ?_, fun name column => ?_⟩
    · simp only [jsonBuiltins, hjson, ofJson, hread, hentries]
      rfl
    · rw [column?_ofMembers hentries]
      simp [JsonColumn, hjson, hread]

/-- What is done with the builtins when they are put together. -/
def setUp (o : Options) (b : Builtins) : Except CommandError Compiler := do
  let dialect ← (Dialect.ofName o.dialect).mapError .setup
  match o.stem with
  | none => return .ofDialect dialect b
  | some name =>
    let stem ← (Stem.ofName name).mapError .setup
    return ⟨dialect, b, stem⟩

lemma compiler_eq_setUp (hjson : o.jsonBuiltins = .ok b) (hspecs : addSpecs b o.builtins = .ok t) :
    o.compiler = o.setUp t := by
  rw [compiler, setUp, hjson]
  refine congrArg _ (funext fun dialect => ?_)
  change b.addSpecs o.builtins >>= _ = _
  exact hspecs ▸ rfl

/-- A dialect and a stem that are valid are put together with the builtins. -/
lemma exists_setUp (hd : Dialect.ofName o.dialect = .ok d)
    (hstem : ∀ name ∈ o.stem, ∃ stem, Stem.ofName name = .ok stem) (b : Builtins) :
    ∃ c, o.setUp b = .ok c ∧ c.dialect = d ∧ c.builtins = b := by
  rw [setUp, hd]
  cases hname : o.stem with
  | none => exact ⟨.ofDialect d b, rfl, rfl, rfl⟩
  | some name =>
    obtain ⟨stem, h⟩ := hstem name hname
    refine ⟨⟨d, b, stem⟩, ?_, rfl, rfl⟩
    simp only [h]
    rfl

/-- What options with a valid dialect, a JSON object of strings and a valid stem are refused for,
and what they set up otherwise. -/
lemma compiler_cases (hd : Dialect.ofName o.dialect = .ok d) (hjson : o.JsonOfStrings)
    (hstem : ∀ name ∈ o.stem, ∃ stem, Stem.ofName name = .ok stem) :
    (∀ e, o.compiler = .error e ↔ ∃ before spec behind, o.builtins = before ++ spec :: behind ∧
      (∀ s ∈ before, ¬IsBroken s) ∧ IsBroken spec ∧ e = .invalidBuiltin spec) ∧
    ∀ c, o.compiler = .ok c → c.dialect = d ∧
      ∀ name column, c.builtins.column? name = some column ↔ o.Resolves name column := by
  obtain ⟨b, hb, hcolumns⟩ := exists_jsonBuiltins hjson
  cases hspecs : addSpecs b o.builtins with
  | error e =>
    have hcompiler : o.compiler = .error e := by
      rw [compiler, hd, hb]
      simp only [Except.mapError, bind, Except.bind, hspecs]
    rw [hcompiler]
    refine ⟨fun e' => ?_, fun c hc => by cases hc⟩
    rw [← addSpecs_eq_error_iff (b := b), hspecs, Except.error.injEq, Except.error.injEq]
  | ok t =>
    obtain ⟨c, hc, hdialect, rfl⟩ := exists_setUp hd hstem t
    rw [compiler_eq_setUp hb hspecs, hc]
    refine ⟨fun e => ?_, fun c' hc' => ?_⟩
    · rw [← addSpecs_eq_error_iff, hspecs]
      simp
    · obtain rfl := Except.ok.inj hc'
      refine ⟨hdialect, fun name column => ?_⟩
      rw [column?_addSpecs hspecs, hcolumns]
      rfl

end Options

/-! ## Ways to give the same builtins -/

namespace Builtins

/-- The name and the column can be written as a spec and read back. -/
structure IsEntry (name column : String) : Prop where
  /-- The name has no blanks at its ends. -/
  trim_name : Text.trim name.toList = name.toList
  /-- The column has no blanks at its ends. -/
  trim_column : Text.trim column.toList = column.toList
  name_ne : name ≠ ""
  column_ne : column ≠ ""
  /-- The name has no equals sign in it. -/
  sign_notMem : '=' ∉ name.toList

/-- The spec that gives the name the column. -/
def spec (name column : String) : String := name ++ "=" ++ column

/-- The builtins as specs. -/
def specs (m : Builtins) : List String := m.toList.map fun e => spec e.1 e.2

/-- The builtins as the text of a JSON object. -/
def jsonText (m : Builtins) : String := Json.text .compact (Json.ofStrings m)

variable {name column name' column' : String} {m : Builtins}

lemma IsEntry.splitsAt (h : IsEntry name column) :
    SplitsAt (spec name column) name.toList column.toList := by
  refine ⟨?_, h.sign_notMem⟩
  simp [spec, String.toList_append]

lemma IsEntry.writes_iff (h : IsEntry name column) :
    Writes (spec name column) name' column' ↔ name' = name ∧ column' = column := by
  rw [h.splitsAt.writes_iff, h.trim_name, h.trim_column, String.ofList_toList,
    String.ofList_toList]

lemma IsEntry.not_isBroken (h : IsEntry name column) : ¬IsBroken (spec name column) := by
  rw [h.splitsAt.isBroken_iff, h.trim_name, h.trim_column, String.toList_eq_nil_iff,
    String.toList_eq_nil_iff, not_or]
  exact ⟨h.name_ne, h.column_ne⟩

end Builtins

namespace Options

open Builtins

variable {o o' : Options} {m : Builtins} {name column : String}

/-- The options give the builtins: each as a spec, as a member of the JSON object, or as both, with
the column of the member overridden. -/
structure Gives (o : Options) (m : Builtins) : Prop where
  json : o.JsonOfStrings
  /-- The specs are those of the builtins. -/
  spec : ∀ spec ∈ o.builtins, ∃ name column, m.column? name = some column ∧
    spec = Builtins.spec name column
  /-- The members of the JSON object have the names of builtins, and if they do not have their
  columns, there are specs for them. -/
  member : ∀ name column, o.JsonColumn name column → ∃ column', m.column? name = some column' ∧
    (column' = column ∨ Builtins.spec name column' ∈ o.builtins)
  /-- There is a spec or a member for each of the builtins. -/
  entry : ∀ name column, m.column? name = some column →
    Builtins.spec name column ∈ o.builtins ∨ o.JsonColumn name column

/-- What the names stand for when the options give the builtins. -/
lemma Gives.resolves_iff (h : o.Gives m)
    (hm : ∀ name column, m.column? name = some column → IsEntry name column) :
    o.Resolves name column ↔ m.column? name = some column := by
  have hwrites : ∀ spec ∈ o.builtins, ∀ n c, Writes spec n c → m.column? n = some c := by
    intro spec hspec n c hw
    obtain ⟨n', c', hcolumn, rfl⟩ := h.spec spec hspec
    obtain ⟨rfl, rfl⟩ := (hm n' c' hcolumn).writes_iff.1 hw
    exact hcolumn
  constructor
  · rintro (⟨before, spec, behind, hsplit, hw, -⟩ | ⟨hnone, hjson⟩)
    · exact hwrites spec (by rw [hsplit]; simp) name column hw
    · obtain ⟨column', hcolumn, rfl | hspec⟩ := h.member name column hjson
      · exact hcolumn
      · exact absurd ⟨column', (hm name column' hcolumn).writes_iff.2 ⟨rfl, rfl⟩⟩ (hnone _ hspec)
  · intro hcolumn
    by_cases hsome : ∃ spec ∈ o.builtins, ∃ c, Writes spec name c
    · obtain ⟨before, spec, behind, hsplit, ⟨c, hw⟩, hbehind⟩ :=
        lastOf_self (q := fun spec => ∃ c, Writes spec name c) hsome
      obtain rfl : c = column := Option.some.inj
        ((hwrites spec (by rw [hsplit]; simp) name c hw).symm.trans hcolumn)
      exact .inl ⟨before, spec, behind, hsplit, hw, hbehind⟩
    · have hnone : ∀ spec ∈ o.builtins, ¬∃ c, Writes spec name c := fun spec hspec hw =>
        hsome ⟨spec, hspec, hw⟩
      refine .inr ⟨hnone, (h.entry name column hcolumn).resolve_left fun hspec => ?_⟩
      exact hnone _ hspec ⟨column, (hm name column hcolumn).writes_iff.2 ⟨rfl, rfl⟩⟩

/-- Options that give the builtins set up a compiler with them. -/
lemma Gives.compiler_eq (h : o.Gives m)
    (hm : ∀ name column, m.column? name = some column → IsEntry name column) :
    o.compiler = o.setUp m := by
  obtain ⟨b, hb, hcolumns⟩ := exists_jsonBuiltins h.json
  cases hspecs : addSpecs b o.builtins with
  | error e =>
    obtain ⟨before, spec, behind, hsplit, -, hbroken, -⟩ := addSpecs_eq_error_iff.1 hspecs
    obtain ⟨name, column, hcolumn, rfl⟩ := h.spec spec (by rw [hsplit]; simp)
    exact absurd hbroken (hm name column hcolumn).not_isBroken
  | ok t =>
    obtain rfl : t = m := Table.ext_find fun key => Option.ext fun column => by
      rw [← column?, ← column?, ← h.resolves_iff hm, column?_addSpecs hspecs, hcolumns]
      rfl
    exact compiler_eq_setUp hb hspecs

/-! ### The three ways -/

lemma mem_specs_iff {spec : String} : spec ∈ m.specs ↔
    ∃ name column, m.column? name = some column ∧ spec = Builtins.spec name column := by
  simp only [specs, List.mem_map, column?, ← Table.mem_toList_iff, Prod.exists]
  exact exists₂_congr fun _ _ => and_congr_right fun _ => eq_comm

/-- The members of a JSON object of builtins are the builtins. -/
lemma jsonColumn_iff {u : Builtins} (h : o.builtinsJson = some u.jsonText) :
    o.JsonColumn name column ↔ u.column? name = some column := by
  have hread : Json.read? u.jsonText = some (Json.ofStrings u) :=
    Json.read?_text_ofStrings ⟨by simp [Json.Layout.compact], by simp [Json.Layout.compact]⟩ u
  simp only [JsonColumn, h, Option.mem_def, Option.some.injEq, exists_eq_left', hread,
    Json.ofStrings, Json.object.injEq, Table.lastOf_toList_iff, Table.find?_map,
    Option.map_eq_some_iff, Json.string.injEq, exists_eq_right, column?]

lemma jsonOfStrings_of_jsonText {u : Builtins} (h : o.builtinsJson = some u.jsonText) :
    o.JsonOfStrings := by
  intro text htext
  obtain rfl := Option.some.inj (h.symm.trans htext)
  refine ⟨_, Json.read?_text_ofStrings ⟨by simp [Json.Layout.compact],
    by simp [Json.Layout.compact]⟩ u, fun e he => ?_⟩
  obtain ⟨e', -, rfl⟩ := List.mem_map.1 he
  exact ⟨e'.2, rfl⟩

/-- Builtins that are given as specs, with a JSON object or without one that they override. -/
lemma gives_specs (dialect : String) (stem : Option String) (json : Option Builtins)
    (hjson : ∀ u ∈ json, ∀ name, u.contains name = true → m.contains name = true) :
    Gives ⟨dialect, m.specs, json.map jsonText, stem⟩ m where
  json := by
    cases json with
    | none => nofun
    | some u => exact jsonOfStrings_of_jsonText rfl
  spec _ hspec := mem_specs_iff.1 hspec
  member name column h := by
    cases json with
    | none =>
      obtain ⟨text, htext, -⟩ := h
      cases htext
    | some u =>
      have hcontains : u.contains name = true := by
        rw [contains_eq_isSome, (jsonColumn_iff rfl).1 h]
        rfl
      have hm := hjson u rfl name hcontains
      rw [contains_eq_isSome] at hm
      obtain ⟨column', hcolumn⟩ := Option.isSome_iff_exists.1 hm
      exact ⟨column', hcolumn, .inr (mem_specs_iff.2 ⟨name, column', hcolumn, rfl⟩)⟩
  entry name column h := .inl (mem_specs_iff.2 ⟨name, column, h, rfl⟩)

/-- Builtins that are given in a JSON object. -/
lemma gives_json (dialect : String) (stem : Option String) :
    Gives ⟨dialect, [], some m.jsonText, stem⟩ m where
  json := jsonOfStrings_of_jsonText rfl
  spec := by simp
  member name column h := ⟨column, (jsonColumn_iff rfl).1 h, .inl rfl⟩
  entry name column h := .inr ((jsonColumn_iff rfl).2 h)

/-- Options with a valid dialect, a JSON object of strings and a valid stem are refused for the
first broken spec, if there is one; otherwise a name stands for the column of the last spec for it,
or that of the JSON object, or nothing.  So builtins whose names and columns can be written as specs
are the same to a filter and to an order-by statement in whichever way they are given, among these
as specs, in a JSON object, and as specs with a JSON object that they override. -/
theorem builtins_overridden_in_order :
    (∀ (o : Options) (d : Dialect), Dialect.ofName o.dialect = .ok d → o.JsonOfStrings →
      (∀ name ∈ o.stem, ∃ stem, Stem.ofName name = .ok stem) →
      (∀ e, o.compiler = .error e ↔ ∃ before spec behind, o.builtins = before ++ spec :: behind ∧
        (∀ s ∈ before, ¬IsBroken s) ∧ IsBroken spec ∧ e = .invalidBuiltin spec) ∧
      ((∀ spec ∈ o.builtins, ¬IsBroken spec) → ∃ c, o.compiler = .ok c) ∧
      ∀ c, o.compiler = .ok c → c.dialect = d ∧
        ∀ name column, c.builtins.column? name = some column ↔ o.Resolves name column) ∧
    ∀ m : Builtins, (∀ name column, m.column? name = some column → IsEntry name column) →
      (∀ o o' : Options, o.Gives m → o'.Gives m → o.dialect = o'.dialect → o.stem = o'.stem →
        (∀ query, o.compile query = o'.compile query) ∧
          ∀ statement, o.order statement = o'.order statement) ∧
      ∀ dialect stem, Gives ⟨dialect, m.specs, none, stem⟩ m ∧
        Gives ⟨dialect, [], some m.jsonText, stem⟩ m ∧
        ∀ u : Builtins, (∀ name, u.contains name = true → m.contains name = true) →
          Gives ⟨dialect, m.specs, some u.jsonText, stem⟩ m := by
  refine ⟨fun o d hd hjson hstem => ?_, fun m hm => ⟨fun o o' h h' hdialect hstem => ?_,
    fun dialect stem => ?_⟩⟩
  · obtain ⟨hrefused, haccepted⟩ := compiler_cases hd hjson hstem
    refine ⟨hrefused, fun hspecs => ?_, haccepted⟩
    cases hcompiler : o.compiler with
    | ok c => exact ⟨c, rfl⟩
    | error e =>
      obtain ⟨before, spec, behind, hsplit, -, hbroken, -⟩ := (hrefused e).1 hcompiler
      exact absurd hbroken (hspecs spec (by rw [hsplit]; simp))
  · have hcompiler : o.compiler = o'.compiler := by
      rw [h.compiler_eq hm, h'.compiler_eq hm, setUp, setUp, hdialect, hstem]
    simp only [compile, order, hcompiler, implies_true, and_self]
  · exact ⟨gives_specs dialect stem none (by simp), gives_json dialect stem,
      fun u hu => gives_specs dialect stem (some u) (by simpa using hu)⟩

/-- Specs with blanks and a further equals sign, two of them for one name, with a JSON object that
has blanks in a column; specs of which two are broken; and one builtin that is given in two
ways. -/
theorem builtins_overridden_in_order_of_specs :
    (let o : Options := ⟨"sqlite", ["a = b=c ", " a =d"], some "\x7b\"w\": \" v\"\x7d", some "q"⟩
      ∃ c, o.compiler = .ok c ∧ c.builtins.column? "a" = some "d" ∧ o.Resolves "a" "d" ∧
        c.builtins.column? "w" = some " v" ∧ o.Resolves "w" " v") ∧
    ((⟨"pgsql", ["a=b", " =c", "d"], none, none⟩ : Options).compiler =
      .error (.invalidBuiltin " =c") ∧ IsBroken " =c") ∧
    ∀ query, compile ⟨"pgsql", ["published=n.published"], none, none⟩ query =
      compile ⟨"pgsql", [], some "\x7b\"published\":\"n.published\"\x7d", none⟩ query := by
  obtain ⟨hassembled, hways⟩ := builtins_overridden_in_order
  refine ⟨?_, ?_, ?_⟩
  · intro o
    have hread : Json.read? "\x7b\"w\": \" v\"\x7d" = some (.object [("w", .string " v")]) := rfl
    have hjson : o.JsonOfStrings := by
      simp [JsonOfStrings, o, hread]
    have hstem : ∀ name ∈ o.stem, ∃ stem, Stem.ofName name = .ok stem := by
      simpa [o] using Except.exists_of_isOk (by decide : (Stem.ofName "q").isOk = true)
    obtain ⟨-, -, hresolves⟩ := hassembled o .sqlite (by decide) hjson hstem
    obtain ⟨c, hc⟩ := Except.exists_of_isOk (by decide +kernel : o.compiler.isOk = true)
    obtain ⟨-, hcolumn⟩ := hresolves c hc
    have hcolumns : o.compiler.map (fun c => ["a", "w"].map c.builtins.column?) =
        .ok [some "d", some " v"] := by decide +kernel
    rw [hc] at hcolumns
    obtain ⟨ha, hw⟩ : c.builtins.column? "a" = some "d" ∧ c.builtins.column? "w" = some " v" := by
      simpa using Except.ok.inj hcolumns
    exact ⟨c, hc, ha, (hcolumn _ _).1 ha, hw, (hcolumn _ _).1 hw⟩
  · have hrefused := Except.map_eq_error_iff.1 (by decide +kernel :
      (⟨"pgsql", ["a=b", " =c", "d"], none, none⟩ : Options).compiler.map (fun _ => ()) =
        .error (.invalidBuiltin " =c"))
    obtain ⟨before, spec, behind, -, -, hbroken, hspec⟩ :=
      ((hassembled ⟨"pgsql", ["a=b", " =c", "d"], none, none⟩ .postgres (by decide)
        (by simp [JsonOfStrings]) (by simp)).1 _).1 hrefused
    obtain rfl := CommandError.invalidBuiltin.inj hspec
    exact ⟨hrefused, hbroken⟩
  · let m : Builtins := .ofList [("published", "n.published")]
    have hm : ∀ name column, m.column? name = some column → IsEntry name column := by
      intro name column h
      obtain ⟨rfl, rfl⟩ : name = "published" ∧ "n.published" = column := by
        simpa [m, column?, Table.ofList, Table.insertAll] using h
      exact ⟨by decide, by decide, by decide, by decide, by decide⟩
    obtain ⟨halike, hgives⟩ := hways m hm
    obtain ⟨hspecs, hjson, -⟩ := hgives "pgsql" none
    have htext : m.jsonText = "\x7b\"published\":\"n.published\"\x7d" := by decide +kernel
    exact htext ▸ (halike _ _ hspecs hjson rfl rfl).1

end Options
end ContentFilter
