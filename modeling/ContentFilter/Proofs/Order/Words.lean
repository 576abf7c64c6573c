import ContentFilter.Proofs.Filter.Reading
import ContentFilter.Proofs.Order.Pattern
import Mathlib.Data.List.DropRight
/-!
# Order-by statements are read word by word

A segment has one word or two: a name, and perhaps a direction (`OrderBy.Segment.read?_eq_some_iff`).
So a direction is recognised only behind a blank, and a name that ends with the letters of one is
a name.  What a statement is ordered by goes segment by segment, and the first segment that cannot
be ordered by is the one that is complained about (`Compiler.order_word_by_word`).
-/

namespace ContentFilter

open Text

namespace OrderBy

variable {d : Dialect} {b : Builtins} {cs : List Char} {s : Segment} {sql : String}
  {e : ParseError}

/-! ## The words of a segment -/

/-- The words are those of the segment. -/
inductive Segment.Spelled : List (List Char) → Segment → Prop
  | name {name : List Char} : IsName name → Spelled [name] ⟨name, none⟩
  | direction {name word : List Char} :
      IsName name → isDirection word = true → Spelled [name, word] ⟨name, some word⟩

namespace Segment

lemma spelled_nil : ¬Spelled [] s := fun h => by cases h

lemma spelled_name {name : List Char} : Spelled [name] s ↔ IsName name ∧ ⟨name, none⟩ = s := by
  constructor
  · rintro ⟨hname⟩
    exact ⟨hname, rfl⟩
  · rintro ⟨hname, rfl⟩
    exact .name hname

lemma spelled_cons {name word : List Char} {ws : List (List Char)} :
    Spelled (name :: word :: ws) s ↔
      (IsName name ∧ isDirection word = true) ∧ ws = [] ∧ ⟨name, some word⟩ = s := by
  constructor
  · intro h
    cases h with
    | direction hname hword => exact ⟨⟨hname, hword⟩, rfl, rfl⟩
  · rintro ⟨⟨hname, hword⟩, rfl, rfl⟩
    exact .direction hname hword

lemma Spelled.isName {name : List Char} {ws : List (List Char)} (h : Spelled (name :: ws) s) :
    IsName name := by
  cases h with
  | name hname => exact hname
  | direction hname _ => exact hname

/-- A text has the words of one segment at most. -/
lemma Spelled.unique {t : Segment} {ws : List (List Char)} (hs : Spelled ws s)
    (ht : Spelled ws t) : s = t := by
  cases hs <;> cases ht <;> rfl

lemma read?_dropWhile (cs : List Char) : read? (cs.dropWhile isBlank) = read? cs := by
  simp only [read?, List.dropWhile_idempotent]

/-- What begins with another word than a name is no segment. -/
lemma read?_eq_none {c : Char} {r : List Char} (hc : isBlank c = false)
    (hname : ¬IsName ((c :: r).takeWhile (!isBlank ·))) : read? (c :: r) = none := by
  by_cases hstart : isNameStart c = true
  · have hword : ∀ x ∈ (c :: r).takeWhile (!isBlank ·), isBlank x = false := fun x hx => by
      simpa using List.mem_takeWhile_imp hx
    have hhead : ((c :: r).takeWhile (!isBlank ·)).head?.any isNameStart = true := by
      simpa [hc] using hstart
    have hletter : ((c :: r).takeWhile (!isBlank ·)).head?.any isLetter = true := by
      simpa [hc] using isLetter_of_isNameStart hstart
    have hforeign : ∃ x ∈ (c :: r).takeWhile (!isBlank ·), isNamePart x = false := by
      by_contra hall
      refine hname ⟨hhead, fun x hx => ?_⟩
      by_contra hx'
      exact hall ⟨x, hx, by simpa using hx'⟩
    have hnone :
        read? ((c :: r).takeWhile (!isBlank ·) ++ (c :: r).dropWhile (!isBlank ·)) = none :=
      read?_foreign hletter hword hforeign
    rwa [List.takeWhile_append_dropWhile] at hnone
  · rw [read?, List.dropWhile_cons_of_neg (by simp [hc])]
    simp [hstart]

/-- Behind a name there is nothing or the one word of a direction. -/
lemma read?_append_eq_some_iff {name rest : List Char} (hname : IsName name)
    (hrest : ∀ c ∈ rest.head?, isBlank c = true) :
    read? (name ++ rest) = some s ↔ Spelled (name :: words rest) s := by
  have hend : ∀ c ∈ rest.head?, isNamePart c = false := fun c hc =>
    not_isNamePart_of_isBlank (hrest c hc)
  have hhead := head?_dropWhile isBlank rest
  rw [read?_append hname hend, ← words_dropWhile_blank]
  cases hbehind : rest.dropWhile isBlank with
  | nil => simp [spelled_name, hname]
  | cons c r =>
    have hc : isBlank c = false := hhead c (by rw [hbehind]; rfl)
    have htail : words ((c :: r).dropWhile (!isBlank ·)) = [] ↔
        ((c :: r).dropWhile (!isBlank ·)).all isBlank = true := by
      rw [words_eq_nil_iff, List.all_eq_true]
    rw [words_cons hc, spelled_cons, and_iff_right hname, htail]
    simp only [List.isEmpty_cons, Bool.false_eq_true, if_false, Bool.and_eq_true,
      Option.ite_none_right_eq_some, Option.some.injEq, and_assoc]

/-- A segment is read by its words. -/
theorem read?_eq_some_iff : read? cs = some s ↔ Spelled (words cs) s := by
  rw [← read?_dropWhile, ← words_dropWhile_blank]
  have hhead := head?_dropWhile isBlank cs
  cases hcs : cs.dropWhile isBlank with
  | nil => simp [read?, spelled_nil]
  | cons c r =>
    have hc : isBlank c = false := hhead c (by rw [hcs]; rfl)
    by_cases hname : IsName ((c :: r).takeWhile (!isBlank ·))
    · have hrest : ∀ x ∈ ((c :: r).dropWhile (!isBlank ·)).head?, isBlank x = true := fun x hx => by
        simpa using head?_dropWhile (!isBlank ·) (c :: r) x hx
      have happend := read?_append_eq_some_iff (s := s) hname hrest
      rwa [List.takeWhile_append_dropWhile, ← words_cons hc] at happend
    · rw [read?_eq_none hc hname, words_cons hc]
      exact ⟨fun h => (by cases h), fun h => absurd h.isName hname⟩

/-- A word that ends with the letters of a direction is a name. -/
example : Spelled (words " titledesc  ".toList) ⟨"titledesc".toList, none⟩ :=
  read?_eq_some_iff.1 (by decide)

/-! ## Segments that can be ordered by -/

/-- The segment is written as the location that its name stands for, and its direction. -/
def WrittenAs (d : Dialect) (b : Builtins) (s : Segment) (sql : String) : Prop :=
  ∃ l : Location, l.NamedBy b s.name ∧
    (l.template d).text ++ (if s.isDescending then " DESC" else " ASC") = sql

/-- Why a text cannot be ordered by: it is not a segment, or the name of the segment stands for
nothing that can be ordered by. -/
inductive Refused (b : Builtins) (cs : List Char) : ParseError → Prop
  | segment : (∀ s, ¬Spelled (words cs) s) →
      Refused b cs (refuse (.invalidSegment (String.ofList (trim cs))))
  | name {s : Segment} : Spelled (words cs) s → (∀ l : Location, ¬l.NamedBy b s.name) →
      Refused b cs (refuse (.invalidName (String.ofList s.name)))

end Segment

open Segment

lemma eq_of_resolve_eq_error {name : List Char} (h : resolve d b name = .error e) :
    e = refuse (.invalidName (String.ofList name)) := by
  unfold resolve at h
  split at h
  · split at h
    · split at h
      · cases h
      · exact (Except.error.inj h).symm
    · split at h
      · split_ifs at h
        exact (Except.error.inj h).symm
      · exact (Except.error.inj h).symm
    · exact (Except.error.inj h).symm
  · exact (Except.error.inj h).symm

/-- The name of a segment is resolved to what it stands for, or refused. -/
lemma resolve_eq_error_iff {name : List Char} (hname : IsName name) :
    resolve d b name = .error e ↔
      (∀ l : Location, ¬l.NamedBy b name) ∧ e = refuse (.invalidName (String.ofList name)) := by
  have hok : ∀ expr, resolve d b name = .ok expr ↔ _ := fun _ =>
    resolve_name_eq_ok_iff hname.head_isLetter hname.inName
  constructor
  · intro h
    refine ⟨fun l hl => ?_, eq_of_resolve_eq_error h⟩
    rw [(hok _).2 ⟨l, hl, rfl⟩] at h
    cases h
  · rintro ⟨hnone, rfl⟩
    cases h : resolve d b name with
    | error e => rw [eq_of_resolve_eq_error h]
    | ok expr =>
      obtain ⟨l, hl, -⟩ := (hok expr).1 h
      exact absurd hl (hnone l)

lemma clause_eq (hs : Spelled (words cs) s) :
    clause d b cs = (resolve d b s.name).map
      (· ++ if s.isDescending then " DESC" else " ASC") := by
  rw [clause, read?_eq_some_iff.2 hs]
  cases h : resolve d b s.name <;> simp [h, Except.map, bind, Except.bind, pure, Except.pure]

lemma clause_eq_error (h : ∀ s, ¬Spelled (words cs) s) :
    clause d b cs = .error (refuse (.invalidSegment (String.ofList (trim cs)))) := by
  have hnone : read? cs = none := Option.eq_none_iff_forall_ne_some.2 fun s hs =>
    h s (read?_eq_some_iff.1 hs)
  rw [clause, hnone]

lemma Segment.Spelled.isName_name {ws : List (List Char)} (h : Spelled ws s) : IsName s.name := by
  cases h with
  | name hname => exact hname
  | direction hname _ => exact hname

/-- A segment is ordered by exactly if its words are those of a segment whose name stands for a
location. -/
lemma clause_eq_ok_iff :
    clause d b cs = .ok sql ↔ ∃ s, Spelled (words cs) s ∧ s.WrittenAs d b sql := by
  by_cases h : ∃ s, Spelled (words cs) s
  · obtain ⟨s, hs⟩ := h
    have hname := hs.isName_name
    rw [clause_eq hs, Except.map_eq_ok_iff]
    simp only [resolve_name_eq_ok_iff hname.head_isLetter hname.inName]
    constructor
    · rintro ⟨expr, ⟨l, hl, rfl⟩, hsql⟩
      exact ⟨s, hs, l, hl, hsql⟩
    · rintro ⟨t, ht, l, hl, hsql⟩
      obtain rfl := hs.unique ht
      exact ⟨_, ⟨l, hl, rfl⟩, hsql⟩
  · rw [not_exists] at h
    rw [clause_eq_error h]
    exact ⟨fun h' => (by cases h'), fun ⟨s, hs, _⟩ => absurd hs (h s)⟩

lemma clause_eq_error_iff : clause d b cs = .error e ↔ Refused b cs e := by
  by_cases h : ∃ s, Spelled (words cs) s
  · obtain ⟨s, hs⟩ := h
    rw [clause_eq hs, Except.map_eq_error_iff, resolve_eq_error_iff hs.isName_name]
    constructor
    · rintro ⟨hnone, rfl⟩
      exact .name hs hnone
    · intro hrefused
      cases hrefused with
      | segment hnone => exact absurd hs (hnone s)
      | name ht hnone =>
        obtain rfl := hs.unique ht
        exact ⟨hnone, rfl⟩
  · rw [not_exists] at h
    rw [clause_eq_error h, Except.error.injEq]
    constructor
    · rintro rfl
      exact .segment h
    · intro hrefused
      cases hrefused with
      | segment _ => rfl
      | name ht _ => exact absurd ht (h _)

/-! ## Statements -/

lemma compile_of_blank {statement : String} (h : ∀ c ∈ statement.toList, isBlank c = true) :
    compile d b statement = .error (refuse .emptyStatement) := by
  rw [compile, trim_eq_nil_iff.2 h]
  rfl

/-- A blank statement is one segment without words, for which there is no clause. -/
lemma not_forall₂_of_blank {statement : String} {clauses : List String}
    (h : ∀ c ∈ statement.toList, isBlank c = true) :
    ¬List.Forall₂ (fun cs clause => ∃ s, Spelled (words cs) s ∧ s.WrittenAs d b clause)
      (splitOn ',' statement.toList) clauses := by
  have hcomma : ',' ∉ statement.toList := fun hmem => absurd (h _ hmem) (by decide)
  rw [splitOn, List.splitOn_eq_singleton hcomma, List.forall₂_cons_left_iff]
  rintro ⟨_, _, ⟨s, hs, -⟩, -⟩
  rw [words_eq_nil_iff.2 h] at hs
  exact spelled_nil hs

/-- A statement is compiled by writing each of its segments. -/
lemma compile_eq_ok_iff {statement : String} :
    compile d b statement = .ok sql ↔ ∃ clauses, List.Forall₂
      (fun cs clause => ∃ s, Spelled (words cs) s ∧ s.WrittenAs d b clause)
      (splitOn ',' statement.toList) clauses ∧ ",\n".intercalate clauses = sql := by
  by_cases hblank : ∀ c ∈ statement.toList, isBlank c = true
  · rw [compile_of_blank hblank]
    exact ⟨fun h => (by cases h), fun ⟨_, h, _⟩ => absurd h (not_forall₂_of_blank hblank)⟩
  · have htrim : ¬(trim statement.toList).isEmpty = true := by
      rwa [List.isEmpty_iff, trim_eq_nil_iff]
    rw [compile, if_neg htrim, Except.bind_eq_ok_iff]
    simp only [Except.mapM_eq_ok_iff, clause_eq_ok_iff, pure, Except.pure, Except.ok.injEq]

/-- A statement that is not blank is refused for the first segment that is. -/
lemma compile_eq_error_iff {statement : String}
    (hblank : ¬∀ c ∈ statement.toList, isBlank c = true) :
    compile d b statement = .error e ↔ ∃ before cs after,
      splitOn ',' statement.toList = before ++ cs :: after ∧
      (∀ x ∈ before, ∃ clause s, Spelled (words x) s ∧ s.WrittenAs d b clause) ∧
      Refused b cs e := by
  have htrim : ¬(trim statement.toList).isEmpty = true := by
    rwa [List.isEmpty_iff, trim_eq_nil_iff]
  rw [compile, if_neg htrim, Except.bind_eq_error_iff]
  simp only [Except.mapM_eq_error_iff, clause_eq_ok_iff, clause_eq_error_iff, pure, Except.pure,
    reduceCtorEq, and_false, exists_false, or_false]

/-- Two statements with a comma in between are compiled one after the other. -/
lemma compile_append_eq_ok_iff {x y : String} :
    compile d b (x ++ "," ++ y) = .ok sql ↔
      ∃ u v, compile d b x = .ok u ∧ compile d b y = .ok v ∧ u ++ ",\n" ++ v = sql := by
  have hsplit : splitOn ',' (x ++ "," ++ y).toList =
      splitOn ',' x.toList ++ splitOn ',' y.toList := by
    rw [← List.splitOn_append_cons_self]
    simp
  have hne : ∀ {R : List Char → String → Prop} {statement : String} {clauses : List String},
      List.Forall₂ R (splitOn ',' statement.toList) clauses → clauses ≠ [] := by
    rintro R statement clauses h rfl
    exact List.splitOn_ne_nil _ _ (List.forall₂_nil_right_iff.1 h)
  simp only [compile_eq_ok_iff, hsplit]
  constructor
  · rintro ⟨clauses, h, rfl⟩
    obtain ⟨us, vs, rfl, hus, hvs⟩ := List.exists_of_forall₂_append h
    exact ⟨_, _, ⟨us, hus, rfl⟩, ⟨vs, hvs, rfl⟩,
      (String.intercalate_append_of_ne_nil (hne hus) (hne hvs)).symm⟩
  · rintro ⟨u, v, ⟨us, hus, rfl⟩, ⟨vs, hvs, rfl⟩, rfl⟩
    exact ⟨us ++ vs, List.rel_append hus hvs,
      String.intercalate_append_of_ne_nil (hne hus) (hne hvs)⟩

/-- A statement can be ordered by exactly if each of its segments can. -/
lemma exists_compile_eq_ok_iff {statement : String} :
    (∃ sql, compile d b statement = .ok sql) ↔ ∀ cs ∈ splitOn ',' statement.toList,
      ∃ s, Spelled (words cs) s ∧ ∃ l : Location, l.NamedBy b s.name := by
  have hclauses : (∃ sql, compile d b statement = .ok sql) ↔ ∃ clauses, List.Forall₂
      (fun cs clause => ∃ s, Spelled (words cs) s ∧ s.WrittenAs d b clause)
      (splitOn ',' statement.toList) clauses := by
    simp [compile_eq_ok_iff]
  rw [hclauses, List.exists_forall₂_iff]
  refine forall₂_congr fun cs _ => ?_
  constructor
  · rintro ⟨_, s, hs, l, hl, -⟩
    exact ⟨s, hs, l, hl⟩
  · rintro ⟨s, hs, l, hl⟩
    exact ⟨_, s, hs, l, hl, rfl⟩

end OrderBy

/-! ## Word by word -/

namespace Compiler

/-- How an order-by statement is read. -/
structure OrdersWordByWord (c : Compiler) (statement : String) : Prop where
  /-- A statement can be ordered by exactly if each part between its commas has the words of a
  segment, a name or a name and a direction, and the name stands for a column or for a field without
  a wildcard. -/
  accepts : (∃ sql, c.order statement = .ok sql) ↔ ∀ cs ∈ splitOn ',' statement.toList,
    ∃ s, OrderBy.Segment.Spelled (words cs) s ∧
      ∃ l : Location, l.NamedBy c.builtins s.name
  /-- It is ordered by the segments in their order, with the direction behind each of them. -/
  clauses : ∀ sql, c.order statement = .ok sql ↔ ∃ clauses, List.Forall₂
    (fun cs clause => ∃ s, OrderBy.Segment.Spelled (words cs) s ∧
      s.WrittenAs c.dialect c.builtins clause)
    (splitOn ',' statement.toList) clauses ∧ ",\n".intercalate clauses = sql
  blank : (∀ ch ∈ statement.toList, isBlank ch = true) →
    c.order statement = .error (OrderBy.refuse .emptyStatement)
  /-- A statement with a word in it is refused for the first segment that is. -/
  refused : (¬∀ ch ∈ statement.toList, isBlank ch = true) → ∀ e,
    c.order statement = .error e ↔ ∃ before cs after,
      splitOn ',' statement.toList = before ++ cs :: after ∧
      (∀ x ∈ before, ∃ clause s, OrderBy.Segment.Spelled (words x) s ∧
        s.WrittenAs c.dialect c.builtins clause) ∧
      OrderBy.Segment.Refused c.builtins cs e
  /-- The words are what the pattern of segments captures with its first match. -/
  captures : ∀ cs ∈ splitOn ',' statement.toList, ∀ m,
    OrderBy.segmentPattern.captures cs = some m ↔
      ∃ s, OrderBy.Segment.Spelled (words cs) s ∧ s.captures = m
  /-- Another statement can be joined. -/
  joined : ∀ other sql, c.order (statement ++ "," ++ other) = .ok sql ↔
    ∃ u v, c.order statement = .ok u ∧ c.order other = .ok v ∧ u ++ ",\n" ++ v = sql

/-- Order-by statements are read word by word. -/
theorem order_word_by_word (c : Compiler) (statement : String) :
    c.OrdersWordByWord statement where
  accepts := OrderBy.exists_compile_eq_ok_iff
  clauses _ := OrderBy.compile_eq_ok_iff
  blank h := OrderBy.compile_of_blank h
  refused h _ := OrderBy.compile_eq_error_iff h
  captures cs _ m := by
    rw [OrderBy.captures_segmentPattern, Option.map_eq_some_iff]
    simp only [OrderBy.Segment.read?_eq_some_iff]
  joined _ _ := OrderBy.compile_append_eq_ok_iff

end Compiler
end ContentFilter
