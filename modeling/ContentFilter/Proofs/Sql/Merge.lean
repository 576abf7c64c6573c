import ContentFilter.Compiler
import ContentFilter.Proofs.Sql.Binding
import ContentFilter.Proofs.Table
/-!
# Merging what a sink has bound

What a sink has bound since an earlier state is a table of its own (`Sink.since`): the names that
were handed out in between, with their values.  Two such tables that follow each other have no
name in common, so that the fragments they belong to can be merged, and merged they are what was
bound in all (`Template.merge_since`).
-/

namespace ContentFilter

/-- Fragments that bind different names can be merged. -/
lemma Fragment.merge_eq_ok {a b : Fragment}
    (h : ∀ name, b.params.contains name = true → a.params.contains name = false) :
    a.merge b = .ok ⟨"(" ++ a.sql ++ ") AND (" ++ b.sql ++ ")",
      a.params.insertAll b.params.toList⟩ := by
  have hnone : b.params.keys.find? a.params.contains = none := by
    refine List.find?_eq_none.2 fun name hname => ?_
    simp [h name (Table.mem_keys_iff.1 hname)]
  rw [merge, hnone]

/-- What a sink has bound since an earlier state: the names that were handed out in between, with
their values. -/
def Sink.since (s earlier : Sink) : Table Scalar :=
  s.values.filter fun name =>
    name ∈ earlier.counter.names (s.counter.next - earlier.counter.next)

namespace Template

/-- What the filling of a template binds are the names for its holes. -/
lemma find?_since_fill (t : Template) (s : Sink) (name : String) :
    ((t.fill s).2.since s).find? name =
      if name ∈ s.counter.names t.values.length then (t.fill s).2.get? name else none := by
  have hcount : (t.fill s).2.counter.next - s.counter.next = t.values.length := by
    rw [counter_fill]
    simp [Counter.advance]
  rw [Sink.since, Table.find?_filter, hcount]
  simp [Sink.get?]

/-- The fragments of two templates that are filled one after the other can be merged, and merged
they bind what both have bound. -/
lemma merge_since (t u : Template) (s : Sink) :
    Fragment.merge ⟨(t.fill s).1, (t.fill s).2.since s⟩
      ⟨(u.fill (t.fill s).2).1, (u.fill (t.fill s).2).2.since (t.fill s).2⟩ =
      .ok ⟨"(" ++ (t.fill s).1 ++ ") AND (" ++ (u.fill (t.fill s).2).1 ++ ")",
        (u.fill (t.fill s).2).2.since s⟩ := by
  have hdisjoint : ∀ name ∈ (t.fill s).2.counter.names (values u).length,
      name ∉ s.counter.names (values t).length := by
    intro name hname hmem
    rw [counter_fill] at hname
    obtain ⟨i, hi, -, rfl⟩ := Counter.mem_names.1 hname
    obtain ⟨j, -, hj, heq⟩ := Counter.mem_names.1 hmem
    obtain rfl := Counter.nameAt_injective _ heq
    simp only [Counter.advance] at hi
    omega
  have hwhole : (u.fill (t.fill s).2).2 = ((t ++ u).fill s).2 := by rw [fill_append]
  rw [Fragment.merge_eq_ok]
  · refine congrArg (fun params => Except.ok (Fragment.mk _ params)) (Table.ext_find fun name => ?_)
    rw [Table.find?_insertAll, find?_since_fill, find?_since_fill, hwhole, find?_since_fill,
      ← hwhole, values_append, List.length_append, Counter.names_add, ← counter_fill]
    by_cases hu : name ∈ (t.fill s).2.counter.names (values u).length
    · simp [hu, hdisjoint name hu]
    · simp [hu, get?_fill_of_notMem u _ hu]
  · intro name hname
    rw [Table.contains, find?_since_fill] at hname ⊢
    split at hname
    · next hu => simp [hdisjoint name hu]
    · simp at hname

end Template
end ContentFilter
