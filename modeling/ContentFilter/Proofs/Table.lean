import ContentFilter.Table
import Mathlib.Data.List.Find
import Mathlib.Data.List.Forall2
import Mathlib.Data.List.Nodup
import Mathlib.Tactic.ByContra
import Mathlib.Tactic.Lemma
/-!
# What tables answer

A table is told by what it answers, and here this is said for every way to make one table from
others: keeping some of the keys (`Table.filter`), making something of each value (`Table.map`), and
putting the entries of a list into a table, where a key is given the value of its last entry
(`Table.find?_insertAll_eq_some_iff`).  The keys and the entries of a table are those that it
answers (`Table.mem_keys_iff`, `Table.mem_toList_iff`), in increasing order
(`Table.find?_keys_eq_some_iff`).
-/

namespace ContentFilter

/-! ## The last element of a kind -/

section

variable {α β : Type} {p q : α → Prop} {a : α} {as : List α}

/-- There is an element with the property `p`, and none behind it has the property `q`. -/
def LastOf (p q : α → Prop) (as : List α) : Prop :=
  ∃ before a behind, as = before ++ a :: behind ∧ p a ∧ ∀ x ∈ behind, ¬q x

lemma not_lastOf_nil : ¬LastOf p q [] := by
  rintro ⟨before, a, behind, h, -⟩
  simp at h

lemma lastOf_cons_iff : LastOf p q (a :: as) ↔ LastOf p q as ∨ p a ∧ ∀ x ∈ as, ¬q x := by
  constructor
  · rintro ⟨before, b, behind, h, hb, hbehind⟩
    cases before with
    | nil =>
      obtain ⟨rfl, rfl⟩ := List.cons.inj h
      exact .inr ⟨hb, hbehind⟩
    | cons x before =>
      obtain ⟨-, rfl⟩ := List.cons.inj h
      exact .inl ⟨before, b, behind, rfl, hb, hbehind⟩
  · rintro (⟨before, b, behind, rfl, hb, hbehind⟩ | ⟨ha, has⟩)
    · exact ⟨a :: before, b, behind, rfl, hb, hbehind⟩
    · exact ⟨[], a, as, rfl, ha, has⟩

/-- If there is one at all, there is a last one. -/
lemma lastOf_self (h : ∃ a ∈ as, q a) : LastOf q q as := by
  induction as with
  | nil => simp at h
  | cons b as ih =>
    rw [lastOf_cons_iff]
    by_cases hrest : ∃ a ∈ as, q a
    · exact .inl (ih hrest)
    · obtain ⟨a, ha, hq⟩ := h
      rcases List.mem_cons.1 ha with rfl | ha
      · exact .inr ⟨hq, fun x hx hqx => hrest ⟨x, hx, hqx⟩⟩
      · exact absurd ⟨a, ha, hq⟩ hrest

/-- The last element is found at the same place in lists that are alike. -/
lemma lastOf_congr {p' q' : β → Prop} {bs : List β} {R : α → β → Prop}
    (h : List.Forall₂ R as bs) (hp : ∀ a b, R a b → (p a ↔ p' b))
    (hq : ∀ a b, R a b → (q a ↔ q' b)) :
    (LastOf p q as ↔ LastOf p' q' bs) ∧ ((∀ a ∈ as, ¬q a) ↔ ∀ b ∈ bs, ¬q' b) := by
  induction h with
  | nil => simp [not_lastOf_nil]
  | cons hab _ ih =>
    rw [lastOf_cons_iff, lastOf_cons_iff, ih.1, ih.2, hp _ _ hab, List.forall_mem_cons,
      List.forall_mem_cons, ih.2, hq _ _ hab]
    exact ⟨Iff.rfl, Iff.rfl⟩

end

namespace Table

variable {α β : Type} {t u : Table α} {l : List (String × α)} {p : String → Bool} {key : String}
  {v : α}

/-! ## Tables made from a table -/

/-- The entries whose keys have a property. -/
def filter (p : String → Bool) (t : Table α) : Table α :=
  ⟨t.entries.filter fun e => p e.1, t.sorted.filter _⟩

@[simp] lemma find?_filter (p : String → Bool) (t : Table α) (key : String) :
    (t.filter p).find? key = if p key then t.find? key else none := by
  simp only [find?, filter, List.find?_filter]
  split
  · next hp =>
    congr 2
    funext e
    by_cases he : e.1 = key <;> simp [he, hp]
  · next hp =>
    rw [Option.map_eq_none_iff, List.find?_eq_none]
    rintro e - he
    simp only [decide_eq_true_eq] at he
    exact hp (he.2 ▸ he.1)

/-- The table with something made of each value. -/
def map (f : α → β) (t : Table α) : Table β :=
  ⟨t.entries.map fun e => (e.1, f e.2), List.pairwise_map.2 t.sorted⟩

lemma find?_map (f : α → β) (t : Table α) (key : String) :
    (t.map f).find? key = (t.find? key).map f := by
  simp [find?, map, List.find?_map, Function.comp_def]

/-! ## Entries that are put in -/

lemma length_insertEntry (value : α) (h : ∀ e ∈ l, e.1 ≠ key) :
    (insertEntry key value l).length = l.length + 1 := by
  induction l with
  | nil => rfl
  | cons e l ih =>
    rw [insertEntry]
    split
    · rfl
    · split
      · next heq => exact absurd heq.symm (h e List.mem_cons_self)
      · rw [List.length_cons, ih fun a ha => h a (List.mem_cons_of_mem e ha), List.length_cons]

/-- A new key makes the table larger by one. -/
lemma size_insert (h : t.find? key = none) (value : α) :
    (t.insert key value).size = t.size + 1 := by
  refine length_insertEntry value fun e he hkey => ?_
  rw [find?, Option.map_eq_none_iff, List.find?_eq_none] at h
  exact h e he (by simpa using hkey)

/-- What is inserted takes precedence. -/
lemma find?_insertAll (t u : Table α) (key : String) :
    (t.insertAll u.toList).find? key = (u.find? key).or (t.find? key) := by
  obtain ⟨l, hl⟩ := u
  simp only [toList, find?]
  induction l generalizing t with
  | nil => rfl
  | cons e l ih =>
    obtain ⟨he, hl⟩ := List.pairwise_cons.1 hl
    have hinsert := find?_insert t e.1 e.2 key
    simp only [find?] at hinsert
    rw [insertAll, List.foldl_cons, ← insertAll, ih (t.insert e.1 e.2) hl, hinsert]
    by_cases hkey : e.1 = key
    · subst hkey
      simp [find?_eq_none_of_lt he]
    · simp [hkey, Ne.symm hkey]

lemma ofList_toList (t : Table α) : ofList t.toList = t :=
  ext_find fun key => by rw [ofList, find?_insertAll, find?_empty, Option.or_none]

lemma contains_insertAll (t u : Table α) (key : String) :
    (t.insertAll u.toList).contains key = (t.contains key || u.contains key) := by
  rw [contains, find?_insertAll, Option.isSome_or, Bool.or_comm]
  rfl

/-- A list of entries gives a key the value of its last entry for it. -/
lemma find?_insertAll_eq_some_iff :
    (t.insertAll l).find? key = some v ↔ LastOf (· = (key, v)) (·.1 = key) l ∨
      (∀ e ∈ l, e.1 ≠ key) ∧ t.find? key = some v := by
  induction l generalizing t with
  | nil => simp [insertAll, not_lastOf_nil]
  | cons e l ih =>
    rw [insertAll, List.foldl_cons, ← insertAll, ih, lastOf_cons_iff, find?_insert,
      List.forall_mem_cons]
    by_cases hkey : key = e.1
    · subst hkey
      have heq : e = (e.1, v) ↔ e.2 = v := ⟨fun h => congrArg Prod.snd h, fun h => by rw [← h]⟩
      simp [heq, and_comm]
    · have hne : e ≠ (key, v) := fun h => hkey (congrArg Prod.fst h).symm
      simp [hkey, hne, Ne.symm hkey]

/-! ## Keys and entries -/

/-- The keys of a table are those that it has a value for. -/
lemma mem_keys_iff : key ∈ t.keys ↔ t.contains key = true := by
  rw [contains, find?, Option.isSome_map, List.find?_isSome, keys, List.mem_map]
  simp

/-- What is found first among the keys with a property is the least of them. -/
lemma find?_keys_eq_some_iff :
    t.keys.find? p = some key ↔ (t.contains key = true ∧ p key = true) ∧
      ∀ k, t.contains k = true → p k = true → k ≠ key → key < k := by
  have hleast : ∀ k, t.keys.find? p = some k → (t.contains k = true ∧ p k = true) ∧
      ∀ j, t.contains j = true → p j = true → j ≠ k → k < j := by
    intro k hk
    obtain ⟨hp, front, back, hkeys, hfront⟩ := List.find?_eq_some_iff_append.1 hk
    have hsorted : (front ++ k :: back).Pairwise (· < ·) := by
      rw [← hkeys, keys, List.pairwise_map]
      exact t.sorted
    refine ⟨⟨mem_keys_iff.1 (hkeys ▸ by simp), hp⟩, fun j hj hpj hne => ?_⟩
    have hmem : j ∈ front ++ k :: back := hkeys ▸ mem_keys_iff.2 hj
    rcases List.mem_append.1 hmem with hj' | hj'
    · exact absurd hpj (by simpa using hfront j hj')
    · obtain hj' := (List.mem_cons.1 hj').resolve_left hne
      exact (List.pairwise_cons.1 (List.pairwise_append.1 hsorted).2.1).1 j hj'
  refine ⟨hleast key, fun ⟨⟨hkey, hp⟩, h⟩ => ?_⟩
  cases hfind : t.keys.find? p with
  | none => exact absurd hp (List.find?_eq_none.1 hfind key (mem_keys_iff.2 hkey))
  | some k =>
    obtain ⟨⟨hk, hpk⟩, h'⟩ := hleast k hfind
    -- two keys that are both the least one are equal
    by_contra hne
    have hne' : k ≠ key := fun heq => hne (by rw [heq])
    exact String.lt_irrefl k (String.lt_trans (h' key hkey hp hne'.symm) (h k hk hpk hne'))

/-- The entries of a table are what it answers. -/
lemma mem_toList_iff : (key, v) ∈ t.toList ↔ t.find? key = some v := by
  have hnodup : (t.entries.map Prod.fst).Nodup := by
    refine List.pairwise_map.2 (t.sorted.imp fun hlt heq => ?_)
    rw [heq] at hlt
    exact String.lt_irrefl _ hlt
  constructor
  · intro hmem
    obtain ⟨e, he⟩ := Option.isSome_iff_exists.1 (List.find?_isSome.2 ⟨(key, v), hmem, by simp⟩ :
      (t.entries.find? fun e => e.1 = key).isSome = true)
    have hkey : e.1 = key := by simpa using List.find?_some he
    have heq := List.inj_on_of_nodup_map hnodup (List.mem_of_find?_eq_some he) hmem hkey
    rw [find?, he, heq]
    rfl
  · intro hfind
    obtain ⟨e, he, rfl⟩ := Option.map_eq_some_iff.1 hfind
    obtain rfl : e.1 = key := by simpa using List.find?_some he
    exact List.mem_of_find?_eq_some he

/-- The last entry for a key is the only one. -/
lemma lastOf_toList_iff :
    LastOf (· = (key, v)) (·.1 = key) t.toList ↔ t.find? key = some v := by
  have hfind := @find?_insertAll_eq_some_iff α empty t.toList key v
  rw [← ofList, ofList_toList, find?_empty] at hfind
  simpa using hfind.symm

end Table
end ContentFilter
