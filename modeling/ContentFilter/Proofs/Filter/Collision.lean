import ContentFilter.Proofs.Filter.Compiled
import ContentFilter.Proofs.Sql.Journal
import ContentFilter.Proofs.Sql.Merge
/-!
# Fragments that bind the same name

Fragments that are compiled apart are merged if they bind no name in common, and different stems
are meant to keep them apart.  A name is a stem with a number behind it, though, and a stem may
itself end with a numeral: `p10` is the eleventh name of the stem `p` and the first one of the stem
`p1`.  This is the only way in which the names of two stems can meet (`Stem.exists_nameAt_eq_iff`).
So the fragments of two compilers with different stems can be merged unless one of the stems is
the other one with a positive number behind it, and the fragment with the shorter stem binds more
than ten times as many values as this number says (`Compiler.merge_isOk_iff`).
-/

namespace ContentFilter

/-! ## Numerals at the end of numerals -/

namespace Counter

lemma toDigits_eq_append {i : Nat} (h : 10 ≤ i) :
    Nat.toDigits 10 i = Nat.toDigits 10 (i / 10) ++ [Nat.digitChar (i % 10)] := by
  have hlast : Nat.toDigits 10 (i % 10) = [Nat.digitChar (i % 10)] :=
    Nat.toDigits_of_lt_base (Nat.mod_lt i (by decide))
  have happend := Nat.toDigits_append_toDigits (b := 10) (n := i / 10) (d := i % 10) (by decide)
    (by omega) (Nat.mod_lt i (by decide))
  rw [← hlast, happend, Nat.div_add_mod]

/-- If a numeral is one numeral behind some characters, these are a positive numeral, which is at
most a tenth of the whole. -/
lemma exists_front {d : List Char} (hd : d ≠ []) {i j : Nat}
    (h : Nat.toDigits 10 i = d ++ Nat.toDigits 10 j) :
    ∃ k, 0 < k ∧ d = Nat.toDigits 10 k ∧ 10 * k ≤ i := by
  -- by the digits of the numeral behind, the last one of which is taken off both sides
  induction j using Nat.strong_induction_on generalizing i with
  | _ j ih =>
  have hpos : 0 < d.length := List.length_pos_iff.2 hd
  have hi : 10 ≤ i := by
    by_contra hlt
    have hlength := congrArg List.length h
    rw [Nat.toDigits_of_lt_base (by omega), List.length_append, List.length_singleton] at hlength
    have hj : 0 < (Nat.toDigits 10 j).length := Nat.length_toDigits_pos
    omega
  by_cases hj : j < 10
  · rw [toDigits_eq_append hi, Nat.toDigits_of_lt_base hj] at h
    obtain ⟨hfront, -⟩ := List.append_inj' h rfl
    exact ⟨i / 10, by omega, hfront.symm, by omega⟩
  · have hj' : 10 ≤ j := by omega
    rw [toDigits_eq_append hi, toDigits_eq_append hj', ← List.append_assoc] at h
    obtain ⟨hfront, -⟩ := List.append_inj' h rfl
    obtain ⟨k, hk, hdigits, hle⟩ := ih (j / 10) (by omega) hfront
    exact ⟨k, hk, hdigits, by omega⟩

end Counter

/-! ## Where the names of two stems meet -/

namespace Stem

/-- The second stem is the first one with a positive number behind it, and there are so many names
of the first one that the first name of the second one is among them. -/
def RunsInto (P : Stem) (m : Nat) (Q : Stem) (n : Nat) : Prop :=
  0 < n ∧ ∃ k, 0 < k ∧ Q.name = P.name ++ toString k ∧ 10 * k < m

variable {P Q : Stem} {m n : Nat}

lemma toList_nameAt (P : Stem) (i : Nat) :
    (Counter.nameAt P i).toList = P.name.toList ++ Nat.toDigits 10 i := by
  rw [Counter.nameAt, String.toList_append, Nat.toString_eq_repr, Nat.toList_repr]

lemma name_injective (h : P.name = Q.name) : P = Q := by
  cases P
  cases Q
  simpa using h

/-- If a name of a stem is one of a longer stem, it runs into that one. -/
lemma runsInto_of_append {d : List Char} (hne : P ≠ Q) (hQ : Q.name.toList = P.name.toList ++ d)
    {i j : Nat} (hi : i < m) (hj : j < n) (h : Nat.toDigits 10 i = d ++ Nat.toDigits 10 j) :
    P.RunsInto m Q n := by
  have hd : d ≠ [] := by
    rintro rfl
    rw [List.append_nil] at hQ
    exact hne (name_injective (String.toList_injective hQ).symm)
  obtain ⟨k, hk, rfl, hle⟩ := Counter.exists_front hd h
  refine ⟨by omega, k, hk, ?_, by omega⟩
  rw [← String.toList_inj, hQ, String.toList_append, Nat.toString_eq_repr, Nat.toList_repr]

/-- A stem that runs into another one has its first name. -/
lemma RunsInto.exists_nameAt_eq (h : P.RunsInto m Q n) :
    ∃ i < m, ∃ j < n, Counter.nameAt P i = Counter.nameAt Q j := by
  obtain ⟨hn, k, hk, hQ, hm⟩ := h
  refine ⟨10 * k, hm, 0, hn, ?_⟩
  have hdigits := Nat.toDigits_append_toDigits (b := 10) (n := k) (d := 0) (by decide) hk
    (by decide)
  rw [← String.toList_inj, toList_nameAt, toList_nameAt, hQ, String.toList_append,
    Nat.toString_eq_repr, Nat.toList_repr, List.append_assoc, hdigits, Nat.add_zero]

/-- Two different stems have names in common exactly if one of them runs into the other. -/
theorem exists_nameAt_eq_iff (hne : P ≠ Q) :
    (∃ i < m, ∃ j < n, Counter.nameAt P i = Counter.nameAt Q j) ↔
      P.RunsInto m Q n ∨ Q.RunsInto n P m := by
  constructor
  · rintro ⟨i, hi, j, hj, h⟩
    rw [← String.toList_inj, toList_nameAt, toList_nameAt] at h
    obtain ⟨d, hQ, hd⟩ | ⟨d, hP, hd⟩ := List.append_eq_append_iff.1 h
    · exact .inl (runsInto_of_append hne hQ hi hj hd)
    · exact .inr (runsInto_of_append hne.symm hP hj hi hd)
  · rintro (h | h)
    · exact h.exists_nameAt_eq
    · obtain ⟨j, hj, i, hi, heq⟩ := h.exists_nameAt_eq
      exact ⟨i, hi, j, hj, heq.symm⟩

end Stem

/-! ## Merging -/

/-- Fragments can be merged exactly if they bind no name in common. -/
lemma Fragment.exists_merge_eq_ok_iff {f g : Fragment} :
    (∃ h, f.merge g = .ok h) ↔
      ¬∃ name, f.params.contains name = true ∧ g.params.contains name = true := by
  constructor
  · rintro ⟨h, hmerge⟩ ⟨name, hf, hg⟩
    unfold merge at hmerge
    split at hmerge
    · cases hmerge
    · next hnone =>
      have hfree := List.find?_eq_none.1 hnone name (Table.mem_keys_iff.2 hg)
      exact hfree hf
  · intro h
    refine ⟨_, merge_eq_ok fun name hg => ?_⟩
    by_contra hf
    exact h ⟨name, by simpa using hf, hg⟩

namespace Compiler

variable {c d : Compiler} {query query' : String} {f g : Fragment}

/-- A fragment binds the first names of its stem, as many as it has values. -/
lemma contains_iff_of_compile (h : c.compile query = .ok f) (name : String) :
    f.params.contains name = true ↔ ∃ i < f.params.size, Counter.nameAt c.stem i = name := by
  obtain ⟨sink, hinto, hparams⟩ := compile_eq_ok h
  obtain ⟨-, C, -, -, -, hfill⟩ := compileInto_eq_ok hinto
  have hkeeps := (Journal.keeps_ofCounter (.ofStem c.stem)).write (C.template c.dialect)
  have hcontains := hkeeps.contains_iff name
  rw [Template.run_write] at hcontains
  simp only [Journal.ofCounter] at hcontains
  rw [show Sink.ofCounter (.ofStem c.stem) = .ofStem c.stem from rfl, hfill] at hcontains
  rw [hparams, hcontains, Counter.mem_names]
  simp [Counter.ofStem, Sink.size]

/-- The fragments of compilers with different stems can be merged, unless one of the stems runs
into the other one. -/
theorem merge_isOk_iff (hne : c.stem ≠ d.stem) (hf : c.compile query = .ok f)
    (hg : d.compile query' = .ok g) :
    (∃ h, f.merge g = .ok h) ↔
      ¬c.stem.RunsInto f.params.size d.stem g.params.size ∧
        ¬d.stem.RunsInto g.params.size c.stem f.params.size := by
  rw [Fragment.exists_merge_eq_ok_iff, ← not_or, ← Stem.exists_nameAt_eq_iff hne, not_iff_not]
  constructor
  · rintro ⟨name, hname, hname'⟩
    obtain ⟨i, hi, rfl⟩ := (contains_iff_of_compile hf name).1 hname
    obtain ⟨j, hj, heq⟩ := (contains_iff_of_compile hg _).1 hname'
    exact ⟨i, hi, j, hj, heq.symm⟩
  · rintro ⟨i, hi, j, hj, heq⟩
    exact ⟨_, (contains_iff_of_compile hf _).2 ⟨i, hi, rfl⟩,
      (contains_iff_of_compile hg _).2 ⟨j, hj, heq.symm⟩⟩

/-- A list of eleven numbers, whose last name with the stem `p` is `p10`, and one number with the
stem `p1`. -/
theorem merge_isOk_iff_of_numeral_stem :
    ∃ f g, (ofDialect .sqlite .empty).compile "a @ [0, 1, 2, 3, 4, 5, 6, 7, 8, 9, 10]" = .ok f ∧
      Compiler.compile ⟨.sqlite, .empty, ⟨"p1", by decide⟩⟩ "b @ [1]" = .ok g ∧
      Stem.default ≠ ⟨"p1", by decide⟩ ∧
      ((∃ h, f.merge g = .ok h) ↔
        ¬Stem.default.RunsInto f.params.size ⟨"p1", by decide⟩ g.params.size ∧
          ¬Stem.RunsInto ⟨"p1", by decide⟩ g.params.size .default f.params.size) := by
  obtain ⟨f, hf⟩ := Except.exists_of_isOk (x := (ofDialect .sqlite .empty).compile
    "a @ [0, 1, 2, 3, 4, 5, 6, 7, 8, 9, 10]") (by decide +kernel)
  obtain ⟨g, hg⟩ := Except.exists_of_isOk (x := Compiler.compile
    ⟨.sqlite, .empty, ⟨"p1", by decide⟩⟩ "b @ [1]") (by decide +kernel)
  have hne : Stem.default ≠ ⟨"p1", by decide⟩ := by decide
  exact ⟨f, g, hf, hg, hne, merge_isOk_iff hne hf hg⟩

/-- Two fragments with different stems that both bind `p10`. -/
theorem merge_collides_of_numeral_stem :
    Stem.default ≠ ⟨"p1", by decide⟩ ∧
    ∃ f g, (ofDialect .sqlite .empty).compile "a @ [0, 1, 2, 3, 4, 5, 6, 7, 8, 9, 10]" = .ok f ∧
      Compiler.compile ⟨.sqlite, .empty, ⟨"p1", by decide⟩⟩ "b @ [1]" = .ok g ∧
      f.merge g = .error ⟨"p10"⟩ := by
  obtain ⟨f, hf⟩ := Except.exists_of_isOk (x := (ofDialect .sqlite .empty).compile
    "a @ [0, 1, 2, 3, 4, 5, 6, 7, 8, 9, 10]") (by decide +kernel)
  obtain ⟨g, hg⟩ := Except.exists_of_isOk (x := Compiler.compile
    ⟨.sqlite, .empty, ⟨"p1", by decide⟩⟩ "b @ [1]") (by decide +kernel)
  -- the outcome of merging what the two compilers give, as far as it can be compared
  have hcollision : ((ofDialect .sqlite .empty).compile
      "a @ [0, 1, 2, 3, 4, 5, 6, 7, 8, 9, 10]").toOption.bind (fun f =>
        (Compiler.compile ⟨.sqlite, .empty, ⟨"p1", by decide⟩⟩ "b @ [1]").toOption.map fun g =>
          (f.merge g).map Fragment.sql) =
      some (.error ⟨"p10"⟩) := by decide +kernel
  rw [hf, hg] at hcollision
  have hmerge : (f.merge g).map Fragment.sql = .error ⟨"p10"⟩ := Option.some.inj hcollision
  refine ⟨by decide, f, g, hf, hg, ?_⟩
  cases h : f.merge g with
  | error e =>
    rw [h] at hmerge
    exact congrArg Except.error (Except.error.inj hmerge)
  | ok m =>
    rw [h] at hmerge
    cases hmerge

end Compiler
end ContentFilter
