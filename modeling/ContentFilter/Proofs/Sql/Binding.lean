import ContentFilter.Proofs.Sql.Glyph
import Mathlib.Data.List.Nodup
/-!
# What a sink has bound

Filling a template binds the values of its holes to the next names of the sink, one after the
other, and leaves every other name as it was (`Template.get?_fill_of_notMem`,
`Template.forall₂_get?_fill`).  In a sink that was made from a counter, by binding one value after
the other, the next names are not bound yet (`Sink.Reachable.get?_eq_none`).
-/

namespace ContentFilter

namespace Counter

/-- The next names of a counter. -/
def names (c : Counter) (n : Nat) : List String := (List.range' c.next n).map (nameAt c.stem)

lemma nameAt_injective (stem : Stem) : Function.Injective (nameAt stem) := by
  intro m n h
  have hdigits : Nat.toDigits 10 m = Nat.toDigits 10 n := by
    have hlist := congrArg String.toList h
    simpa [nameAt, Nat.toString_eq_repr, Nat.toList_repr] using hlist
  calc m = Nat.ofDigitChars 10 (Nat.toDigits 10 m) 0 := Nat.ofDigitChars_ten_toDigits.symm
    _ = Nat.ofDigitChars 10 (Nat.toDigits 10 n) 0 := by rw [hdigits]
    _ = n := Nat.ofDigitChars_ten_toDigits

lemma names_succ (c : Counter) (n : Nat) : c.names (n + 1) = c.name :: c.succ.names n := rfl

lemma names_add (c : Counter) (m n : Nat) :
    c.names (m + n) = c.names m ++ (c.advance m).names n := by
  simp only [names, advance, ← List.map_append, List.range'_append_1]

lemma nodup_names (c : Counter) (n : Nat) : (c.names n).Nodup :=
  (List.nodup_range' (s := c.next) (n := n)).map (nameAt_injective c.stem)

lemma mem_names {c : Counter} {n : Nat} {name : String} :
    name ∈ c.names n ↔ ∃ i, c.next ≤ i ∧ i < c.next + n ∧ nameAt c.stem i = name := by
  simp [names, List.mem_map, List.mem_range'_1, and_assoc]

end Counter

namespace Template

variable {name : String}

/-- Names that are not used up keep what they are bound to. -/
lemma get?_fill_of_notMem (t : Template) (s : Sink)
    (h : name ∉ s.counter.names t.values.length) : (t.fill s).2.get? name = s.get? name := by
  induction t generalizing s with
  | nil => rfl
  | cons p t ih =>
    cases p with
    | code x => exact ih s h
    | literal x => exact ih s h
    | hole v =>
      rw [values, List.length_cons, Counter.names_succ, List.mem_cons, not_or] at h
      have htail := ih (s.add v).2 h.2
      simp only [fill, htail]
      simp [Sink.get?, Sink.add, h.1]

/-- The names that are used up are bound to the values of the holes, in order. -/
lemma forall₂_get?_fill (t : Template) (s : Sink) :
    List.Forall₂ (fun name v => (t.fill s).2.get? name = some v)
      (s.counter.names t.values.length) t.values := by
  induction t generalizing s with
  | nil => exact .nil
  | cons p t ih =>
    cases p with
    | code x => exact ih s
    | literal x => exact ih s
    | hole v =>
      -- the name of this hole is not among those of the later ones, and so it stays bound
      have hfresh : s.counter.name ∉ (s.add v).2.counter.names (values t).length := by
        have hnodup := s.counter.nodup_names ((values t).length + 1)
        exact (List.nodup_cons.1 hnodup).1
      have hhead := (get?_fill_of_notMem t (s.add v).2 hfresh).trans (s.get?_add v)
      exact .cons hhead (ih (s.add v).2)

end Template

namespace Sink

/-- The sinks that are made from a counter by binding values. -/
inductive Reachable : Sink → Prop
  | ofCounter (c : Counter) : Reachable (.ofCounter c)
  | add {s : Sink} (v : Scalar) : Reachable s → Reachable (s.add v).2

/-- What is bound has a name that was handed out before. -/
lemma Reachable.exists_name {s : Sink} (h : s.Reachable) {name : String} {v : Scalar}
    (hv : s.get? name = some v) : ∃ i < s.counter.next, Counter.nameAt s.counter.stem i = name := by
  induction h with
  | ofCounter c => cases hv
  | @add s w _ ih =>
    by_cases hname : name = s.counter.name
    · exact ⟨s.counter.next, Nat.lt_succ_self _, hname.symm⟩
    · have hold : s.get? name = some v := by simpa [get?, Sink.add, hname] using hv
      obtain ⟨i, hi, hname'⟩ := ih hold
      exact ⟨i, Nat.lt_succ_of_lt hi, hname'⟩

/-- The next names are not bound. -/
lemma Reachable.get?_eq_none {s : Sink} (h : s.Reachable) {n : Nat} {name : String}
    (hname : name ∈ s.counter.names n) : s.get? name = none := by
  obtain ⟨i, hi, -, rfl⟩ := Counter.mem_names.1 hname
  cases hv : s.get? (Counter.nameAt s.counter.stem i) with
  | none => rfl
  | some v =>
    obtain ⟨j, hj, heq⟩ := h.exists_name hv
    obtain rfl := Counter.nameAt_injective _ heq
    omega

lemma Reachable.fill {s : Sink} (h : s.Reachable) (t : Template) : (t.fill s).2.Reachable := by
  induction t generalizing s with
  | nil => exact h
  | cons p t ih =>
    cases p with
    | code x => exact ih h
    | literal x => exact ih h
    | hole v => exact ih (h.add v)

end Sink
end ContentFilter
