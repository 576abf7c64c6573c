import ContentFilter.Proofs.Options.Builtins
/-!
# Valid options

Options are not valid if a part of them is not: the dialect, the JSON text with builtins, one of the
builtins that are given by themselves, or the stem of the placeholders (`Options.Invalid`).  They
set up a compiler exactly if they are valid (`Options.exists_compiler_iff`), and if they are not, no
query is to blame for it (`Options.isQueryError_of_compiler`).
-/

namespace ContentFilter
namespace Options

/-- What can be wrong with options. -/
inductive Invalid (o : Options) : Prop
  /-- No dialect has the name. -/
  | dialect : Dialect.ofName? o.dialect = none → Invalid o
  /-- The JSON text is not that of an object whose values are strings. -/
  | json : ¬o.JsonOfStrings → Invalid o
  /-- A builtin is not given as a name and a column. -/
  | spec {spec : String} : spec ∈ o.builtins → Builtins.IsBroken spec → Invalid o
  /-- The text cannot be a stem of placeholder names. -/
  | stem {name : String} : o.stem = some name → Stem.ofName? name = none → Invalid o

variable {o : Options} {b : Builtins} {c : Compiler} {e : CommandError}

lemma exists_dialect_iff {name : String} :
    (∃ d, Dialect.ofName name = .ok d) ↔ Dialect.ofName? name ≠ none := by
  rw [Dialect.ofName]
  cases Dialect.ofName? name <;> simp

lemma exists_stem_iff {name : String} :
    (∃ stem, Stem.ofName name = .ok stem) ↔ Stem.ofName? name ≠ none := by
  rw [Stem.ofName]
  cases Stem.ofName? name <;> simp

lemma jsonOfStrings_of_jsonBuiltins (h : o.jsonBuiltins = .ok b) : o.JsonOfStrings := by
  intro text htext
  rw [jsonBuiltins, Option.mem_def.1 htext] at h
  simp only [Builtins.ofJson] at h
  split at h
  · cases h
  · next members hread =>
    obtain ⟨entries, hentries, -⟩ := Except.bind_eq_ok_iff.1 h
    refine ⟨members, hread, fun member hmember => ?_⟩
    obtain ⟨entry, hentry⟩ := Except.exists_of_mapM_eq_ok hentries member hmember
    exact ⟨entry.2, congrArg Prod.snd (Builtins.ofMember_eq_ok_iff.1 hentry)⟩
  · cases h

/-- A broken spec is refused. -/
lemma not_isBroken_of_addSpecs {t : Builtins} {specs : List String}
    (h : Builtins.addSpecs b specs = .ok t) : ∀ spec ∈ specs, ¬Builtins.IsBroken spec := by
  obtain ⟨entries, hentries, -⟩ := Except.bind_eq_ok_iff.1 h
  intro spec hspec
  exact Builtins.exists_ofSpec_iff.1 (Except.exists_of_mapM_eq_ok hentries spec hspec)

/-- Options that set up a compiler are valid. -/
lemma not_invalid_of_compiler (h : o.compiler = .ok c) : ¬o.Invalid := by
  simp only [compiler, Except.bind_eq_ok_iff, Except.mapError_eq_ok_iff] at h
  obtain ⟨d, hd, b, hb, t, hspecs, hstem⟩ := h
  rintro (hdialect | hjson | ⟨hspec, hbroken⟩ | ⟨hname, hnone⟩)
  · exact exists_dialect_iff.1 ⟨d, hd⟩ hdialect
  · exact hjson (jsonOfStrings_of_jsonBuiltins hb)
  · exact not_isBroken_of_addSpecs hspecs _ hspec hbroken
  · simp only [hname, Except.bind_eq_ok_iff, Except.mapError_eq_ok_iff] at hstem
    obtain ⟨stem, hstem, -⟩ := hstem
    exact exists_stem_iff.1 ⟨stem, hstem⟩ hnone

/-- Options set up a compiler exactly if they are valid. -/
lemma exists_compiler_iff : (∃ c, o.compiler = .ok c) ↔ ¬o.Invalid := by
  refine ⟨fun ⟨_, h⟩ => not_invalid_of_compiler h, fun hvalid => ?_⟩
  obtain ⟨d, hd⟩ := exists_dialect_iff.2 fun h => hvalid (.dialect h)
  have hjson : o.JsonOfStrings := by
    by_contra h
    exact hvalid (.json h)
  have hstem : ∀ name ∈ o.stem, ∃ stem, Stem.ofName name = .ok stem := fun name hname =>
    exists_stem_iff.2 fun h => hvalid (.stem hname h)
  cases hc : o.compiler with
  | ok c => exact ⟨c, rfl⟩
  | error e =>
    obtain ⟨before, spec, behind, hspecs, -, hbroken, -⟩ :=
      ((compiler_cases hd hjson hstem).1 e).1 hc
    exact absurd (.spec (by rw [hspecs]; simp) hbroken) hvalid

lemma isQueryError_of_mapError_setup {α : Type} {x : Except SetupError α}
    (h : x.mapError .setup = .error e) : e.isQueryError = false := by
  obtain ⟨e, -, rfl⟩ := Except.mapError_eq_error_iff.1 h
  rfl

lemma isQueryError_of_ofMember {name : String} {v : Json}
    (h : Builtins.ofMember name v = .error e) : e.isQueryError = false := by
  unfold Builtins.ofMember at h
  split at h
  · cases h
  · obtain rfl := Except.error.inj h
    rfl

lemma isQueryError_of_jsonBuiltins (h : o.jsonBuiltins = .error e) : e.isQueryError = false := by
  unfold jsonBuiltins at h
  split at h
  · simp only [Builtins.ofJson] at h
    split at h
    · obtain rfl := Except.error.inj h
      rfl
    · rcases Except.bind_eq_error_iff.1 h with h | ⟨_, -, h⟩
      · obtain ⟨_, -, hmember⟩ := Except.exists_of_mapM_eq_error h
        exact isQueryError_of_ofMember hmember
      · cases h
    · obtain rfl := Except.error.inj h
      rfl
  · cases h

/-- No query is to blame if there is no compiler. -/
lemma isQueryError_of_compiler (h : o.compiler = .error e) : e.isQueryError = false := by
  rw [compiler, Except.bind_eq_error_iff] at h
  rcases h with hdialect | ⟨d, -, h⟩
  · exact isQueryError_of_mapError_setup hdialect
  rw [Except.bind_eq_error_iff] at h
  rcases h with hjson | ⟨b, -, h⟩
  · exact isQueryError_of_jsonBuiltins hjson
  rw [Except.bind_eq_error_iff] at h
  rcases h with hspecs | ⟨t, -, h⟩
  · obtain ⟨_, spec, _, -, -, -, rfl⟩ := Builtins.addSpecs_eq_error_iff.1 hspecs
    rfl
  split at h
  · cases h
  · rcases Except.bind_eq_error_iff.1 h with hstem | ⟨stem, -, h⟩
    · exact isQueryError_of_mapError_setup hstem
    · cases h

end Options
end ContentFilter
