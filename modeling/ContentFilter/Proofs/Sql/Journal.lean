import ContentFilter.Proofs.Sql.Binding
import ContentFilter.Proofs.Table
/-!
# The history of a sink

A sink changes as values are bound in it.  A journal is a sink together with the bindings it has
made, in the order of time: each name that was handed out, with the value bound to it.  A template
is written into a journal piece by piece, and each hole binds its value when it is reached
(`Template.write`); the text and the sink are those of `Template.fill` (`Template.run_write`).

In a journal that begins with an empty sink and goes on by bindings alone, nothing is lost: the
names are the next ones of the counter, in order, and the sink holds just these names with the
values that were bound to them (`Journal.Keeps`).  One binding preserves this (`Journal.Keeps.add`),
and so does the writing of a template (`Journal.Keeps.write`).
-/

namespace ContentFilter

/-- A sink with the bindings it has made. -/
structure Journal where
  /-- The sink. -/
  sink : Sink
  /-- The names that were handed out, each with the value bound to it, in the order of time. -/
  entries : List (String × Scalar)

namespace Journal

/-- A journal without entries, whose sink hands out the names of a counter. -/
def ofCounter (c : Counter) : Journal := ⟨.ofCounter c, []⟩

/-- Bind a value to the next name, and give its placeholder. -/
def add (j : Journal) (v : Scalar) : String × Journal :=
  ((j.sink.add v).1, ⟨(j.sink.add v).2, j.entries ++ [(j.sink.counter.name, v)]⟩)

/-- Nothing was lost since the sink was made from the counter. -/
structure Keeps (c : Counter) (j : Journal) : Prop where
  /-- The counter stands behind the names that were handed out. -/
  counter : j.sink.counter = c.advance j.entries.length
  /-- The names are the next ones of the counter, in order. -/
  names : j.entries.map Prod.fst = c.names j.entries.length
  /-- There are as many names in the sink as values were bound. -/
  size : j.sink.size = j.entries.length
  /-- Each name still has the value that was bound to it. -/
  bound : ∀ name v, (name, v) ∈ j.entries → j.sink.get? name = some v
  /-- The sink holds nothing else. -/
  only : ∀ name v, j.sink.get? name = some v → (name, v) ∈ j.entries

variable {c : Counter} {j : Journal}

lemma keeps_ofCounter (c : Counter) : (ofCounter c).Keeps c where
  counter := rfl
  names := rfl
  size := rfl
  bound := fun _ _ h => absurd h List.not_mem_nil
  only := fun _ _ h => nomatch h

lemma Keeps.mem_names (h : j.Keeps c) {name : String} {v : Scalar} (hmem : (name, v) ∈ j.entries) :
    name ∈ c.names j.entries.length := by
  rw [← h.names]
  exact List.mem_map_of_mem (f := Prod.fst) hmem

/-- The next name is not one of those that were handed out. -/
lemma Keeps.name_notMem (h : j.Keeps c) : j.sink.counter.name ∉ c.names j.entries.length := by
  intro hmem
  obtain ⟨i, -, hi, hname⟩ := Counter.mem_names.1 hmem
  rw [h.counter] at hname
  have hnext : i = c.next + j.entries.length := Counter.nameAt_injective c.stem hname
  omega

/-- The next name is not bound. -/
lemma Keeps.get?_name (h : j.Keeps c) : j.sink.get? j.sink.counter.name = none := by
  cases hv : j.sink.get? j.sink.counter.name with
  | none => rfl
  | some v => exact absurd (h.mem_names (h.only _ v hv)) h.name_notMem

lemma get?_add (j : Journal) (v : Scalar) (name : String) :
    (j.add v).2.sink.get? name =
      if name = j.sink.counter.name then some v else j.sink.get? name := by
  simp only [add, Sink.add, Sink.get?, Table.find?_insert]

/-- A binding loses nothing. -/
lemma Keeps.add (h : j.Keeps c) (v : Scalar) : (j.add v).2.Keeps c where
  counter := by
    simp only [Journal.add, Sink.add, h.counter, List.length_append, List.length_singleton]
    rfl
  names := by
    have hlast : (c.advance j.entries.length).names 1 = [j.sink.counter.name] := by
      rw [h.counter]
      rfl
    simp only [Journal.add, List.map_append, List.length_append, List.length_singleton,
      Counter.names_add, hlast, h.names]
    rfl
  size := by
    have hnew := Table.size_insert (t := j.sink.values) h.get?_name v
    simp only [Journal.add, Sink.add, Sink.size, List.length_append, List.length_singleton, hnew]
    exact congrArg (· + 1) h.size
  bound := by
    intro name w hmem
    rw [get?_add]
    rcases List.mem_append.1 hmem with hold | hnew
    · rw [if_neg, h.bound name w hold]
      rintro rfl
      exact h.name_notMem (h.mem_names hold)
    · obtain ⟨rfl, rfl⟩ := Prod.mk.inj (List.mem_singleton.1 hnew)
      rw [if_pos rfl]
  only := by
    intro name w hw
    rw [get?_add] at hw
    split at hw
    · next hname =>
      obtain rfl := Option.some.inj hw
      exact List.mem_append_right _ (List.mem_singleton.2 (by rw [hname]))
    · exact List.mem_append_left _ (h.only name w hw)

/-- The names that were handed out are pairwise distinct. -/
lemma Keeps.nodup (h : j.Keeps c) : (j.entries.map Prod.fst).Nodup := by
  rw [h.names]
  exact Counter.nodup_names c _

/-- The sink holds the names that were handed out. -/
lemma Keeps.contains_iff (h : j.Keeps c) (name : String) :
    j.sink.values.contains name = true ↔ name ∈ c.names j.sink.size := by
  rw [h.size, ← h.names, Table.contains, Option.isSome_iff_exists, List.mem_map]
  constructor
  · rintro ⟨v, hv⟩
    exact ⟨(name, v), h.only name v hv, rfl⟩
  · rintro ⟨⟨name, v⟩, hmem, rfl⟩
    exact ⟨v, h.bound name v hmem⟩

/-- What one journal has, the other one has as well: the entries go on where they ended, and every
binding is as it was. -/
structure Extends (j j' : Journal) : Prop where
  entries : j.entries <+: j'.entries
  get? : ∀ name v, j.sink.get? name = some v → j'.sink.get? name = some v

/-- A journal that keeps everything and whose entries go on extends the earlier one. -/
lemma Keeps.extends {j' : Journal} (h : j.Keeps c) (h' : j'.Keeps c)
    (hentries : j.entries <+: j'.entries) : j.Extends j' where
  entries := hentries
  get? := fun name v hv => h'.bound name v (hentries.subset (h.only name v hv))

end Journal

namespace Template

/-- Write a template into a journal, from left to right, and give its text. -/
def write : Template → StateM Journal String
  | [] => pure ""
  | .code t :: r => do
    let text ← write r
    return t ++ text
  | .literal c :: r => do
    let text ← write r
    return Sql.quote c ++ text
  | .hole v :: r => do
    let placeholder ← modifyGet fun j => j.add v
    let text ← write r
    return placeholder ++ text

/-- Writing a template fills it from the sink, and enters its values under the next names. -/
theorem run_write (t : Template) (j : Journal) :
    t.write.run j = ((t.fill j.sink).1, ⟨(t.fill j.sink).2,
      j.entries ++ (j.sink.counter.names t.values.length).zip t.values⟩) := by
  induction t generalizing j with
  | nil =>
    rw [fill, values, List.length_nil, List.zip_nil_right, List.append_nil]
    rfl
  | cons p t ih =>
    cases p with
    | code x =>
      have htext : (write (.code x :: t)).run j =
          (x ++ ((write t).run j).1, ((write t).run j).2) := rfl
      rw [htext, ih]
      rfl
    | literal x =>
      have htext : (write (.literal x :: t)).run j =
          (Sql.quote x ++ ((write t).run j).1, ((write t).run j).2) := rfl
      rw [htext, ih]
      rfl
    | hole v =>
      have hadd : (write (.hole v :: t)).run j =
          ((j.add v).1 ++ ((write t).run (j.add v).2).1, ((write t).run (j.add v).2).2) := rfl
      rw [hadd, ih, values, List.length_cons, Counter.names_succ, List.zip_cons_cons]
      simp only [Journal.add, fill, List.append_assoc, List.singleton_append]
      rfl

end Template

/-- The writing of a template loses nothing. -/
lemma Journal.Keeps.write {c : Counter} {j : Journal} (h : j.Keeps c) (t : Template) :
    (t.write.run j).2.Keeps c := by
  induction t generalizing j with
  | nil => exact h
  | cons p t ih =>
    cases p with
    | code x => exact ih h
    | literal x => exact ih h
    | hole v => exact ih (h.add v)

end ContentFilter
