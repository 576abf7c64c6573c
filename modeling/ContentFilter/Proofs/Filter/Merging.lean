import ContentFilter.Proofs.Filter.Collision
import ContentFilter.Proofs.Filter.Parameters
import ContentFilter.Proofs.Filter.Placeholders
import ContentFilter.Proofs.Text.ByteOrder
/-!
# Merging is a disjoint union

Two fragments are merged by putting the entries of the second one into the table of the first, entry
by entry, and giving up at the first name that is there already.  No entry that was put in on the
way is ever found again, since a table has a name once only; so what fails is what the two fragments
share from the start, and the name in the error is the first one that they share
(`Fragment.merge_eq_error_iff`).  What is merged has the entries of both, whichever way three
fragments are grouped (`Fragment.exists_grouped_iff`).

The SQL of what is merged has the parameters of both fragments, those of the first one in front.
In a fragment that is compiled, or merged from such, the parameters of the SQL are just the names
that are bound, each of them once (`Fragment.Assembled.exists_named`).
-/

namespace ContentFilter

namespace Fragment

variable {a b c m : Fragment}

/-! ## Names that are shared -/

/-- Both fragments bind the name. -/
def Shares (a b : Fragment) (name : String) : Prop :=
  a.params.contains name = true ∧ b.params.contains name = true

/-- The fragments bind no name in common. -/
def Apart (a b : Fragment) : Prop := ∀ name, ¬a.Shares b name

lemma exists_merge_iff : (∃ m, a.merge b = .ok m) ↔ a.Apart b :=
  exists_merge_eq_ok_iff.trans not_exists

lemma merge_eq_ok_iff :
    a.merge b = .ok m ↔ a.Apart b ∧
      m = ⟨"(" ++ a.sql ++ ") AND (" ++ b.sql ++ ")", a.params.insertAll b.params.toList⟩ := by
  have happly : a.Apart b →
      a.merge b = .ok ⟨"(" ++ a.sql ++ ") AND (" ++ b.sql ++ ")",
        a.params.insertAll b.params.toList⟩ := fun h =>
    merge_eq_ok fun name hb => Bool.eq_false_iff.2 fun ha => h name ⟨ha, hb⟩
  constructor
  · intro h
    have hapart : a.Apart b := exists_merge_iff.1 ⟨m, h⟩
    exact ⟨hapart, Except.ok.inj (h.symm.trans (happly hapart))⟩
  · rintro ⟨hapart, rfl⟩
    exact happly hapart

/-- The name in the error is the first one, in the order of bytes, that both fragments bind. -/
lemma merge_eq_error_iff {e : Collision} :
    a.merge b = .error e ↔ a.Shares b e.name ∧
      ∀ name, a.Shares b name → name ≠ e.name → Text.bytes e.name < Text.bytes name := by
  have hfind : a.merge b = .error e ↔
      b.params.keys.find? a.params.contains = some e.name := by
    obtain ⟨name⟩ := e
    rw [merge]
    split
    · next hname => simp [hname]
    · next hnone => simp [hnone]
  simp only [hfind, Table.find?_keys_eq_some_iff, Text.bytes_lt_iff, Shares]
  tauto

lemma exists_merge_eq_error_iff :
    (∃ e, a.merge b = .error e) ↔ ∃ name, a.Shares b name := by
  have hok : (∃ m, a.merge b = .ok m) ↔ ¬∃ name, a.Shares b name := exists_merge_eq_ok_iff
  cases h : a.merge b with
  | ok m => simpa [h] using hok
  | error e => simpa [h] using hok

/-! ## Entry by entry -/

/-- Put entries into a table, one after the other, unless their name is there already. -/
def bindEach (t : Table Scalar) : List (String × Scalar) → Except Collision (Table Scalar)
  | [] => .ok t
  | (name, value) :: r =>
    if t.contains name then .error ⟨name⟩ else bindEach (t.insert name value) r

/-- With names that increase, an entry is never in the way of a later one. -/
lemma bindEach_eq {l : List (String × Scalar)} (hl : l.Pairwise fun x y => x.1 < y.1)
    (t : Table Scalar) :
    bindEach t l =
      match (l.map Prod.fst).find? t.contains with
      | some name => .error ⟨name⟩
      | none => .ok (t.insertAll l) := by
  induction l generalizing t with
  | nil => rfl
  | cons x l ih =>
    obtain ⟨name, value⟩ := x
    obtain ⟨hx, hl⟩ := List.pairwise_cons.1 hl
    by_cases hname : t.contains name = true
    · simp [bindEach, hname]
    · have hkeep : ∀ key ∈ l.map Prod.fst,
          (t.insert name value).contains key = t.contains key := by
        intro key hkey
        obtain ⟨y, hy, rfl⟩ := List.mem_map.1 hkey
        have hne : y.1 ≠ name := fun heq => String.lt_irrefl name (heq ▸ hx y hy)
        simp [Table.contains, hne]
      have hfind : (l.map Prod.fst).find? (t.insert name value).contains =
          (l.map Prod.fst).find? t.contains := List.find?_congr hkeep
      rw [bindEach, if_neg hname, ih hl, hfind, List.map_cons, List.find?_cons_of_neg hname]
      rfl

/-- To merge is to put in the entries of the second fragment one after the other. -/
theorem merge_eq_bindEach (a b : Fragment) :
    a.merge b = (bindEach a.params b.params.toList).map
      fun params => ⟨"(" ++ a.sql ++ ") AND (" ++ b.sql ++ ")", params⟩ := by
  rw [merge, Table.toList, bindEach_eq b.params.sorted, Table.keys]
  cases (b.params.entries.map Prod.fst).find? a.params.contains <;> rfl

/-! ## Three fragments -/

lemma apart_comm : a.Apart b ↔ b.Apart a := forall_congr' fun _ => not_congr and_comm

/-- What is merged shares a name with a third fragment if one of its parts does. -/
lemma apart_merge_left (h : a.merge b = .ok m) : m.Apart c ↔ a.Apart c ∧ b.Apart c := by
  obtain ⟨-, rfl⟩ := merge_eq_ok_iff.1 h
  simp only [Apart, Shares, Table.contains_insertAll, Bool.or_eq_true, ← forall_and]
  refine forall_congr' fun name => ?_
  tauto

lemma exists_merge_left_iff :
    (∃ m, (a.merge b >>= fun ab => ab.merge c) = .ok m) ↔
      a.Apart b ∧ a.Apart c ∧ b.Apart c := by
  simp only [Except.bind_eq_ok_iff]
  constructor
  · rintro ⟨m, ab, hab, h⟩
    exact ⟨exists_merge_iff.1 ⟨ab, hab⟩, (apart_merge_left hab).1 (exists_merge_iff.1 ⟨m, h⟩)⟩
  · rintro ⟨hab, hc⟩
    obtain ⟨ab, hab⟩ := exists_merge_iff.2 hab
    obtain ⟨m, h⟩ := exists_merge_iff.2 ((apart_merge_left hab).2 hc)
    exact ⟨m, ab, hab, h⟩

lemma exists_merge_right_iff :
    (∃ m, (b.merge c >>= fun bc => a.merge bc) = .ok m) ↔
      a.Apart b ∧ a.Apart c ∧ b.Apart c := by
  simp only [Except.bind_eq_ok_iff]
  constructor
  · rintro ⟨m, bc, hbc, h⟩
    obtain ⟨hb, hc⟩ := (apart_merge_left hbc).1 (apart_comm.1 (exists_merge_iff.1 ⟨m, h⟩))
    exact ⟨apart_comm.1 hb, apart_comm.1 hc, exists_merge_iff.1 ⟨bc, hbc⟩⟩
  · rintro ⟨hb, hc, hbc⟩
    obtain ⟨bc, hbc⟩ := exists_merge_iff.2 hbc
    have hboth := (apart_merge_left hbc).2 ⟨apart_comm.1 hb, apart_comm.1 hc⟩
    obtain ⟨m, h⟩ := exists_merge_iff.2 (apart_comm.1 hboth)
    exact ⟨m, bc, hbc, h⟩

/-- Three fragments that are merged have the same entries, whichever way they are grouped. -/
lemma params_grouped {m m' : Fragment} (h : (a.merge b >>= fun ab => ab.merge c) = .ok m)
    (h' : (b.merge c >>= fun bc => a.merge bc) = .ok m') : m.params = m'.params := by
  obtain ⟨ab, hab, h⟩ := Except.bind_eq_ok_iff.1 h
  obtain ⟨bc, hbc, h'⟩ := Except.bind_eq_ok_iff.1 h'
  obtain ⟨-, rfl⟩ := merge_eq_ok_iff.1 hab
  obtain ⟨-, rfl⟩ := merge_eq_ok_iff.1 hbc
  obtain ⟨-, rfl⟩ := merge_eq_ok_iff.1 h
  obtain ⟨-, rfl⟩ := merge_eq_ok_iff.1 h'
  refine Table.ext_find fun name => ?_
  simp only [Table.find?_insertAll, Option.or_assoc]

end Fragment

/-! ## Parameters of what is merged -/

namespace Sql

variable {p : Char → Bool} {d : Char}

lemma takeWhile_leadingCode_append (hd : p d = false) (gs hs : List Glyph) :
    (leadingCode (gs ++ .code d :: hs)).takeWhile p = (leadingCode gs).takeWhile p := by
  induction gs with
  | nil => simp [leadingCode, hd]
  | cons g gs ih =>
    cases g with
    | code c => simp only [List.cons_append, leadingCode, List.takeWhile_cons, ih]
    | literal s => rfl

/-- No parameter reaches over a delimiter. -/
lemma parametersFrom_append (hd : isDelimiter d = true) (hcolon : d ≠ ':') (b : Bool)
    (gs hs : List Glyph) :
    parametersFrom b (gs ++ .code d :: hs) = parametersFrom b gs ++ parametersFrom false hs := by
  have hchar : isParameterChar d = false := by
    simp only [isDelimiter, isWordChar, Bool.and_eq_true, Bool.not_eq_true', Bool.or_eq_false_iff]
      at hd
    simp [isParameterChar, hd.1.1.1.1, hd.1.1.1.2]
  fun_induction parametersFrom b gs with
  | case1 b => rw [List.nil_append, parametersFrom_code hcolon]; rfl
  | case2 b r name ih =>
    rw [List.cons_append, parametersFrom, takeWhile_leadingCode_append hchar, ih,
      List.append_assoc]
  | case3 b g r hg ih =>
    rw [List.cons_append, parametersFrom, ih]
    exact hg

/-- Two texts in parentheses and joined have the glyphs and the parameters of both. -/
lemma parameters_conjunction {x y : String} {ns ns' : List String}
    (hx : (glyphs x).map parameters = some ns) (hy : (glyphs y).map parameters = some ns') :
    (glyphs ("(" ++ x ++ ") AND (" ++ y ++ ")")).map parameters = some (ns ++ ns') := by
  obtain ⟨gs, hgs, rfl⟩ := Option.map_eq_some_iff.1 hx
  obtain ⟨hs, hhs, rfl⟩ := Option.map_eq_some_iff.1 hy
  have hclose : glyphsFrom none [')'] = some [.code ')'] := by decide
  have hsecond : glyphsFrom none (y.toList ++ [')']) = some (hs ++ [.code ')']) := by
    rw [glyphsFrom_append hhs (by simp), hclose]
    rfl
  have hopen : glyphsFrom none (") AND (".toList ++ (y.toList ++ [')'])) =
      some (codeGlyphs ") AND (" ++ (hs ++ [.code ')'])) := by
    rw [glyphsFrom_codes (by decide), hsecond]
    rfl
  have hwhole : glyphs ("(" ++ x ++ ") AND (" ++ y ++ ")") =
      some (.code '(' :: (gs ++ (codeGlyphs ") AND (" ++ (hs ++ [.code ')'])))) := by
    have htext : ("(" ++ x ++ ") AND (" ++ y ++ ")").toList =
        '(' :: (x.toList ++ (") AND (".toList ++ (y.toList ++ [')']))) := by
      simp
    rw [glyphs, htext, glyphsFrom_code (by decide), glyphsFrom_append hgs (by simp), hopen]
    rfl
  have hjoin : codeGlyphs ") AND (" ++ (hs ++ [.code ')']) =
      .code ')' :: (codeGlyphs " AND (" ++ (hs ++ [.code ')'])) := rfl
  have hcode : Unnamed " AND (" := unnamed_of_notMem (by decide)
  rw [hwhole, Option.map_some, parameters, parametersFrom_code (by decide), hjoin,
    parametersFrom_append (by decide) (by decide), hcode,
    parametersFrom_append (by decide) (by decide), parametersFrom, List.append_nil]
  rfl

end Sql

namespace Fragment

variable {a b m f : Fragment} {ns ns' : List String}

/-- The parameters in the SQL of the fragment, in order, have the given names, and these are just
the names that it binds, each of them once. -/
structure Named (f : Fragment) (ns : List String) : Prop where
  parameters : (Sql.glyphs f.sql).map Sql.parameters = some ns
  nodup : ns.Nodup
  mem_iff : ∀ name, name ∈ ns ↔ f.params.contains name = true

/-- What is merged has the parameters of the first fragment, and behind them those of the
second. -/
lemma Named.merge (ha : a.Named ns) (hb : b.Named ns') (h : a.merge b = .ok m) :
    m.Named (ns ++ ns') := by
  obtain ⟨hapart, rfl⟩ := merge_eq_ok_iff.1 h
  refine ⟨Sql.parameters_conjunction ha.parameters hb.parameters, ?_, fun name => ?_⟩
  · rw [List.nodup_append']
    refine ⟨ha.nodup, hb.nodup, fun name hname hname' => ?_⟩
    exact hapart name ⟨(ha.mem_iff name).1 hname, (hb.mem_iff name).1 hname'⟩
  · rw [List.mem_append, ha.mem_iff, hb.mem_iff, Table.contains_insertAll, Bool.or_eq_true]

/-- In the SQL of a filter nothing but the placeholders is a parameter. -/
lemma exists_named_of_compile {c : Compiler} {query : String}
    (hcolumns : ∀ name x, c.builtins.column? name = some x → ':' ∉ x.toList ∧ '\'' ∉ x.toList)
    (h : c.compile query = .ok f) : ∃ ns, f.Named ns := by
  obtain ⟨gs, hgs, hmem⟩ := Compiler.mem_placeholders_iff hcolumns h
  obtain ⟨sink, hinto, -⟩ := Compiler.compile_eq_ok h
  obtain ⟨T, C, hT, hC, -, hfill⟩ := Compiler.compileInto_eq_ok hinto
  have hformed := hT.formed_template hC hcolumns
  have hunnamed : (C.template c.dialect).Unnamed :=
    C.unnamed_template c.dialect fun condition hcondition =>
      hT.forall_codes hC (fun name x hx => (hcolumns name x hx).1)
        (fun x hx hcolon => absurd (hx _ hcolon) (by decide)) hcondition
  have hglyphs := Template.glyphs_fill (hformed.spaced fun x hx => hx.2) (.ofStem c.stem)
  have hplaceholders := hformed.placeholders_glyphs (fun x hx => hx.1) (.ofStem c.stem)
  have hparameters := hformed.parameters_glyphs hunnamed (.ofStem c.stem)
  rw [hfill] at hglyphs
  obtain rfl : gs = _ := Option.some.inj (hgs.symm.trans hglyphs)
  refine ⟨_, by rw [hgs, Option.map_some]; exact congrArg some hparameters,
    Counter.nodup_names _ _, fun name => ?_⟩
  rw [← hmem, ← hplaceholders]
  rfl

/-- The fragments that are compiled, with columns that have no colons and no quotes, and those that
are merged from such. -/
inductive Assembled : Fragment → Prop
  | compiled {c : Compiler} {query : String} {f : Fragment} :
      (∀ name x, c.builtins.column? name = some x → ':' ∉ x.toList ∧ '\'' ∉ x.toList) →
      c.compile query = .ok f → Assembled f
  | merged {a b m : Fragment} :
      Assembled a → Assembled b → a.merge b = .ok m → Assembled m

/-- The parameters in the SQL of a fragment that is assembled are the names that it binds. -/
theorem Assembled.exists_named (h : f.Assembled) : ∃ ns, f.Named ns := by
  induction h with
  | compiled hcolumns hcompile => exact exists_named_of_compile hcolumns hcompile
  | merged _ _ hmerge iha ihb =>
    obtain ⟨ns, ha⟩ := iha
    obtain ⟨ns', hb⟩ := ihb
    exact ⟨_, ha.merge hb hmerge⟩

/-! ## The union -/

/-- How three fragments are merged, two of them or all. -/
structure MergesDisjointly (a b c : Fragment) : Prop where
  /-- Entry by entry, into a table that grows. -/
  each : a.merge b = (bindEach a.params b.params.toList).map
    fun params => ⟨"(" ++ a.sql ++ ") AND (" ++ b.sql ++ ")", params⟩
  /-- To merge two fragments fails exactly if they share a name, -/
  fails : (∃ e, a.merge b = .error e) ↔ ∃ name, a.Shares b name
  /-- with the first name that they share, in the order of bytes. -/
  least : ∀ e, a.merge b = .error e ↔ a.Shares b e.name ∧
    ∀ name, a.Shares b name → name ≠ e.name → Text.bytes e.name < Text.bytes name
  /-- What is merged binds a name to what the fragment that binds it has bound it to. -/
  union : ∀ m, a.merge b = .ok m → ∀ name v, m.params.find? name = some v ↔
    a.params.find? name = some v ∨ b.params.find? name = some v
  /-- Three fragments can be merged, the first two of them first, exactly if no two of them share a
  name, -/
  left : (∃ m, (a.merge b >>= fun ab => ab.merge c) = .ok m) ↔
    a.Apart b ∧ a.Apart c ∧ b.Apart c
  /-- and likewise if the last two of them are merged first; -/
  right : (∃ m, (b.merge c >>= fun bc => a.merge bc) = .ok m) ↔
    a.Apart b ∧ a.Apart c ∧ b.Apart c
  /-- both ways bind the same. -/
  grouped : ∀ m m', (a.merge b >>= fun ab => ab.merge c) = .ok m →
    (b.merge c >>= fun bc => a.merge bc) = .ok m' → m.params = m'.params
  /-- The parameters in the SQL of what is merged are the names that are bound, each of them once,
  and those of the first fragment stand in front. -/
  named : a.Assembled → b.Assembled → ∀ m, a.merge b = .ok m →
    ∃ ns ns', a.Named ns ∧ b.Named ns' ∧ m.Named (ns ++ ns')

lemma find?_merge_eq_some_iff (h : a.merge b = .ok m) (name : String) (v : Scalar) :
    m.params.find? name = some v ↔
      a.params.find? name = some v ∨ b.params.find? name = some v := by
  obtain ⟨hapart, rfl⟩ := merge_eq_ok_iff.1 h
  have hname := hapart name
  simp only [Shares, Table.contains, Option.isSome_iff_exists] at hname
  rw [Table.find?_insertAll, Option.or_eq_some_iff]
  constructor
  · rintro (hb | ⟨-, ha⟩)
    · exact .inr hb
    · exact .inl ha
  · rintro (ha | hb)
    · exact .inr ⟨Option.eq_none_iff_forall_ne_some.2 fun w hb => hname ⟨⟨v, ha⟩, w, hb⟩, ha⟩
    · exact .inl hb

/-- Merging is a disjoint union of fragments. -/
theorem merge_disjointly (a b c : Fragment) : MergesDisjointly a b c where
  each := merge_eq_bindEach a b
  fails := exists_merge_eq_error_iff
  least _ := merge_eq_error_iff
  union _ h := find?_merge_eq_some_iff h
  left := exists_merge_left_iff
  right := exists_merge_right_iff
  grouped _ _ h h' := params_grouped h h'
  named ha hb m h := by
    obtain ⟨ns, hns⟩ := ha.exists_named
    obtain ⟨ns', hns'⟩ := hb.exists_named
    exact ⟨ns, ns', hns, hns', hns.merge hns' h⟩

/-- Two filters with different stems; the first one has a cast, and a string that looks like a
parameter, which PostgreSQL has inside of a literal. -/
theorem merge_disjointly_of_stems :
    ∃ a b m, Compiler.compile ⟨.postgres, Table.empty.insert "id" "n.id", ⟨"a_", by decide⟩⟩
        "t < now & s = ':b_0' & id @ ['x', 'y']" = .ok a ∧
      Compiler.compile ⟨.sqlite, Table.empty.insert "id" "n.id", ⟨"b_", by decide⟩⟩
        "id = 'z'" = .ok b ∧
      a.merge b = .ok m ∧ ∃ ns ns', a.Named ns ∧ b.Named ns' ∧ m.Named (ns ++ ns') := by
  have hcolumns : ∀ name x, Builtins.column? (Table.empty.insert "id" "n.id") name = some x →
      ':' ∉ x.toList ∧ '\'' ∉ x.toList :=
    Builtins.forall_column_of_single (by decide)
  obtain ⟨a, ha⟩ := Except.exists_of_isOk (x := Compiler.compile
    ⟨.postgres, Table.empty.insert "id" "n.id", ⟨"a_", by decide⟩⟩
    "t < now & s = ':b_0' & id @ ['x', 'y']") (by decide +kernel)
  obtain ⟨b, hb⟩ := Except.exists_of_isOk (x := Compiler.compile
    ⟨.sqlite, Table.empty.insert "id" "n.id", ⟨"b_", by decide⟩⟩ "id = 'z'") (by decide +kernel)
  have hmerged : ((Compiler.compile ⟨.postgres, Table.empty.insert "id" "n.id",
      ⟨"a_", by decide⟩⟩ "t < now & s = ':b_0' & id @ ['x', 'y']").toOption.any fun a =>
        (Compiler.compile ⟨.sqlite, Table.empty.insert "id" "n.id", ⟨"b_", by decide⟩⟩
          "id = 'z'").toOption.any fun b => (a.merge b).isOk) = true := by decide +kernel
  rw [ha, hb] at hmerged
  obtain ⟨m, hm⟩ := Except.exists_of_isOk hmerged
  exact ⟨a, b, m, ha, hb, hm,
    (merge_disjointly a b m).named (.compiled hcolumns ha) (.compiled hcolumns hb) m hm⟩

end Fragment
end ContentFilter
