/-!
# Tables keyed by text

A table holds at most one value for each key.  Its entries are kept in the order of the keys,
character by character, so that a table is determined by what it answers (`Table.ext_find`), and
listing it lists the keys in increasing order.  A later entry for a key replaces an earlier one.
-/

namespace ContentFilter

/-- A finite map from texts to values. -/
structure Table (α : Type) where
  /-- The keys with their values, in the order of the keys. -/
  entries : List (String × α)
  /-- The keys increase strictly. -/
  sorted : entries.Pairwise fun a b => a.1 < b.1
deriving Repr

namespace Table

variable {α β : Type}

/-- The table without entries. -/
def empty : Table α := ⟨[], .nil⟩

instance : Inhabited (Table α) := ⟨empty⟩

/-- Put a key with its value where the order wants it, in place of an entry with the same key. -/
def insertEntry (key : String) (value : α) : List (String × α) → List (String × α)
  | [] => [(key, value)]
  | e :: r =>
    if key < e.1 then (key, value) :: e :: r
    else if key = e.1 then (key, value) :: r
    else e :: insertEntry key value r

theorem fst_mem_of_mem_insertEntry {key : String} {value : α} {l : List (String × α)}
    {e : String × α} (h : e ∈ insertEntry key value l) : e = (key, value) ∨ e ∈ l := by
  induction l with
  | nil => exact .inl (by simpa [insertEntry] using h)
  | cons a r ih =>
    rw [insertEntry] at h
    split at h
    · exact List.mem_cons.1 h
    · split at h
      · rcases List.mem_cons.1 h with h | h
        · exact .inl h
        · exact .inr (List.mem_cons_of_mem _ h)
      · rcases List.mem_cons.1 h with h | h
        · exact .inr (h ▸ List.mem_cons_self)
        · rcases ih h with h | h
          · exact .inl h
          · exact .inr (List.mem_cons_of_mem _ h)

theorem pairwise_insertEntry (key : String) (value : α) {l : List (String × α)}
    (h : l.Pairwise fun a b => a.1 < b.1) :
    (insertEntry key value l).Pairwise fun a b => a.1 < b.1 := by
  induction l with
  | nil => simp [insertEntry]
  | cons e r ih =>
    obtain ⟨he, hr⟩ := List.pairwise_cons.1 h
    rw [insertEntry]
    split
    · next hlt =>
      refine List.pairwise_cons.2 ⟨fun b hb => ?_, h⟩
      rcases List.mem_cons.1 hb with rfl | hb
      · exact hlt
      · exact String.lt_trans hlt (he b hb)
    · next hlt =>
      split
      · next heq => exact List.pairwise_cons.2 ⟨fun b hb => heq ▸ he b hb, hr⟩
      · next hne =>
        refine List.pairwise_cons.2 ⟨fun b hb => ?_, ih hr⟩
        rcases fst_mem_of_mem_insertEntry hb with rfl | hb
        · exact Decidable.byContradiction fun hge =>
            hne (String.le_antisymm (String.not_lt.1 hge) (String.not_lt.1 hlt))
        · exact he b hb

/-- The table in which the key has the given value and all else is as before. -/
def insert (t : Table α) (key : String) (value : α) : Table α :=
  ⟨insertEntry key value t.entries, pairwise_insertEntry key value t.sorted⟩

/-- The value of a key, if the table has one. -/
def find? (t : Table α) (key : String) : Option α :=
  (t.entries.find? fun e => e.1 = key).map Prod.snd

/-- Whether the table has a value for the key. -/
def contains (t : Table α) (key : String) : Bool := (t.find? key).isSome

/-- The number of keys. -/
def size (t : Table α) : Nat := t.entries.length

/-- Whether the table has no entries. -/
def isEmpty (t : Table α) : Bool := t.entries.isEmpty

/-- Insert one entry after the other, so that the last value of a key is the one that stays. -/
def insertAll (t : Table α) (l : List (String × α)) : Table α :=
  l.foldl (fun t e => t.insert e.1 e.2) t

/-- The table of a list of entries; the last value of a key is the one that stays. -/
def ofList (l : List (String × α)) : Table α := empty.insertAll l

/-- The entries in the order of the keys. -/
def toList (t : Table α) : List (String × α) := t.entries

/-- The keys in increasing order. -/
def keys (t : Table α) : List String := t.entries.map Prod.fst

theorem find?_insertEntry (key : String) (value : α) (l : List (String × α)) (k : String) :
    ((insertEntry key value l).find? fun e => e.1 = k).map Prod.snd =
      if k = key then some value else (l.find? fun e => e.1 = k).map Prod.snd := by
  induction l with
  | nil =>
    by_cases hk : k = key
    · subst hk
      simp [insertEntry]
    · simp [insertEntry, hk, Ne.symm hk]
  | cons e r ih =>
    rw [insertEntry]
    split
    · by_cases hk : k = key
      · subst hk
        simp
      · simp [hk, Ne.symm hk, List.find?_cons]
    · split
      · next heq =>
        by_cases hk : k = key
        · subst hk
          simp
        · have hne : e.1 ≠ k := fun h => hk (by rw [← h, heq])
          simp [hk, Ne.symm hk, hne]
      · next hne =>
        by_cases hek : e.1 = k
        · have hk : k ≠ key := fun h => hne (by rw [← h, hek])
          simp [hek, hk]
        · simpa [List.find?_cons, hek] using ih

/-- A key inserted answers with its value, and every other key as before. -/
@[simp] theorem find?_insert (t : Table α) (key : String) (value : α) (k : String) :
    (t.insert key value).find? k = if k = key then some value else t.find? k :=
  find?_insertEntry key value t.entries k

@[simp] theorem find?_empty (k : String) : (empty : Table α).find? k = none := rfl

theorem find?_eq_none_of_lt {l : List (String × α)} {k : String}
    (h : ∀ e ∈ l, k < e.1) : l.find? (fun e => e.1 = k) = none := by
  refine List.find?_eq_none.2 fun e he => ?_
  have hlt := h e he
  simpa using fun hk : e.1 = k => String.lt_irrefl k (hk ▸ hlt)

theorem entries_eq_of_find {l m : List (String × α)}
    (hl : l.Pairwise fun a b => a.1 < b.1) (hm : m.Pairwise fun a b => a.1 < b.1)
    (h : ∀ k, (l.find? fun e => e.1 = k).map Prod.snd = (m.find? fun e => e.1 = k).map Prod.snd) :
    l = m := by
  induction l generalizing m with
  | nil =>
    cases m with
    | nil => rfl
    | cons b r => simpa [List.find?_cons] using h b.1
  | cons a r ih =>
    cases m with
    | nil => simpa [List.find?_cons] using h a.1
    | cons b s =>
      obtain ⟨ha, hr⟩ := List.pairwise_cons.1 hl
      obtain ⟨hb, hs⟩ := List.pairwise_cons.1 hm
      have hkey : a.1 = b.1 := by
        refine Decidable.byContradiction fun hne => ?_
        rcases Decidable.em (a.1 < b.1) with hab | hab
        · have hnone : (b :: s).find? (fun e => e.1 = a.1) = none :=
            find?_eq_none_of_lt fun e he => by
              rcases List.mem_cons.1 he with rfl | he
              · exact hab
              · exact String.lt_trans hab (hb e he)
          have hk := h a.1
          rw [hnone] at hk
          simp at hk
        · have hba : b.1 < a.1 := Decidable.byContradiction fun hge =>
            hne (String.le_antisymm (String.not_lt.1 hge) (String.not_lt.1 hab))
          have hnone : (a :: r).find? (fun e => e.1 = b.1) = none :=
            find?_eq_none_of_lt fun e he => by
              rcases List.mem_cons.1 he with rfl | he
              · exact hba
              · exact String.lt_trans hba (ha e he)
          have hk := h b.1
          rw [hnone] at hk
          simp at hk
      have hval : a.2 = b.2 := by
        have hk := h a.1
        simpa [List.find?_cons, hkey] using hk
      have hab : a = b := Prod.ext hkey hval
      subst hab
      congr 1
      refine ih hr hs fun k => ?_
      by_cases hk : a.1 = k
      · subst hk
        rw [find?_eq_none_of_lt ha, find?_eq_none_of_lt hb]
      · simpa [List.find?_cons, hk] using h k

/-- Tables that give the same answers are equal. -/
theorem ext_find {t u : Table α} (h : ∀ k, t.find? k = u.find? k) : t = u := by
  obtain ⟨l, hl⟩ := t
  obtain ⟨m, hm⟩ := u
  have hlm : l = m := entries_eq_of_find hl hm h
  subst hlm
  rfl

end Table
end ContentFilter
