import ContentFilter.Proofs.Order.Words
/-!
# Directions

A direction is recognised up to case, where case is that of the pattern of segments: the long s is
an s.  What decides between the two orders compares the word with the letters of ASCII only, in
which the long s is none.  So a descending order is written for the words that the pattern has matched as
descending, unless there is a long s in them; with a long s the order is reversed
(`Compiler.order_directions`).
-/

namespace ContentFilter

open Text

namespace OrderBy

variable {d : Dialect} {b : Builtins} {cs w : List Char} {s : Segment} {clause : String}

/-! ## The two ways to disregard case -/

lemma toLower_eq_iff {c x : Char} (hx : x.isLower = true) (hk : x ≠ 'k') :
    c.toLower = x ↔ foldCase c = x ∧ c ≠ 'ſ' := by
  have hlong : 'ſ'.toLower = 'ſ' := by decide
  have hkelvin : (Char.ofNat 0x212A).toLower = Char.ofNat 0x212A := by decide
  unfold foldCase
  split_ifs with hs hK
  · -- the long s is no ASCII letter
    obtain rfl : c = 'ſ' := by rw [← Char.ofNat_toNat c, hs]
    rw [hlong]
    refine ⟨?_, fun h => absurd rfl h.2⟩
    rintro rfl
    revert hx
    decide
  · -- nor is the kelvin sign, and the letter that it is taken for is not in the word
    obtain rfl : c = Char.ofNat 0x212A := by rw [← Char.ofNat_toNat c, hK]
    rw [hkelvin]
    refine ⟨?_, fun h => absurd h.1.symm hk⟩
    rintro rfl
    revert hx
    decide
  · refine ⟨fun h => ⟨h, ?_⟩, fun h => h.1⟩
    rintro rfl
    exact hs rfl

/-- A word without a k is the same in ASCII letters of any case if it is so up to case and has no
long s. -/
lemma map_toLower_eq_iff {v : List Char} (hv : v.all Char.isLower = true) (hk : 'k' ∉ v) :
    w.map Char.toLower = v ↔ w.map foldCase = v ∧ 'ſ' ∉ w := by
  induction w generalizing v with
  | nil => simp
  | cons c w ih =>
    cases v with
    | nil => simp
    | cons x v =>
      rw [List.all_cons, Bool.and_eq_true] at hv
      rw [List.mem_cons, not_or] at hk
      simp only [List.map_cons, List.cons.injEq, ih hv.2 hk.2,
        toLower_eq_iff hv.1 (Ne.symm hk.1), List.mem_cons, not_or]
      tauto

/-! ## The direction of a clause -/

/-- A clause is written for what the pattern of segments has captured: in descending order if the
word for it was matched and has no long s, and in ascending order otherwise. -/
structure DirectedBy (m : Pattern.Captures Label) (clause : String) : Prop where
  descending : " DESC".toList <:+ clause.toList ↔ ∃ w, m.lookup .descending = some w ∧ 'ſ' ∉ w
  ascending : " ASC".toList <:+ clause.toList ↔ ∀ w, m.lookup .descending = some w → 'ſ' ∈ w

/-- The word for the descending order is matched if it is the direction up to case. -/
lemma Segment.Spelled.lookup_descending {ws : List (List Char)} (hs : Spelled ws s) :
    s.captures.lookup .descending =
      s.direction.filter fun word => word.map foldCase = "desc".toList := by
  cases hs with
  | name _ => rfl
  | @direction name word _ hword =>
    by_cases hasc : word.map foldCase = "asc".toList
    · have hcaptures : captures ⟨name, some word⟩ =
          [(.direction, word), (.ascending, word), (.name, name)] := by
        simp only [captures, hasc, if_true]
      have hdesc : word.map foldCase ≠ "desc".toList := by
        rw [hasc]
        decide
      rw [hcaptures, Option.filter_some, if_neg (by simpa using hdesc)]
      rfl
    · have hcaptures : captures ⟨name, some word⟩ =
          [(.direction, word), (.descending, word), (.name, name)] := by
        simp only [captures, hasc, if_false]
      have hdesc : word.map foldCase = "desc".toList := by
        simpa only [isDirection, hasc, decide_false, Bool.false_or, decide_eq_true_eq] using hword
      rw [hcaptures, Option.filter_some, if_pos (by simpa using hdesc)]
      rfl

/-- The order is descending if the word for it was matched and has no long s. -/
lemma Segment.Spelled.isDescending_iff {ws : List (List Char)} (hs : Spelled ws s) :
    s.isDescending = true ↔ ∃ w, s.captures.lookup .descending = some w ∧ 'ſ' ∉ w := by
  have hword : ∀ word : List Char, word.map Char.toLower = "desc".toList ↔
      word.map foldCase = "desc".toList ∧ 'ſ' ∉ word := fun word =>
    map_toLower_eq_iff (by decide) (by decide)
  rw [hs.lookup_descending, isDescending]
  cases s.direction with
  | none => simp
  | some word =>
    simp only [Option.any_some, decide_eq_true_eq, hword, Option.filter_eq_some_iff,
      Option.some.injEq]
    constructor
    · rintro ⟨hfold, hlong⟩
      exact ⟨word, ⟨rfl, hfold⟩, hlong⟩
    · rintro ⟨w, ⟨rfl, hfold⟩, hlong⟩
      exact ⟨hfold, hlong⟩

/-- No clause ends with both directions. -/
lemma not_suffix_desc (h : " ASC".toList <:+ cs) : ¬" DESC".toList <:+ cs := fun h' =>
  absurd (List.suffix_of_suffix_length_le h h' (by decide)) (by decide)

lemma Segment.WrittenAs.directedBy {ws : List (List Char)} (h : s.WrittenAs d b clause)
    (hs : Segment.Spelled ws s) : DirectedBy s.captures clause := by
  obtain ⟨l, -, rfl⟩ := h
  have hdescending := hs.isDescending_iff
  cases hdirection : s.isDescending with
  | true =>
    have hend : " DESC".toList <:+ ((l.template d).text ++ " DESC").toList := by simp
    rw [hdirection] at hdescending
    obtain ⟨w, hw, hlong⟩ := hdescending.1 rfl
    exact ⟨iff_of_true hend ⟨w, hw, hlong⟩,
      iff_of_false (fun h => not_suffix_desc h hend) fun h => hlong (h w hw)⟩
  | false =>
    have hend : " ASC".toList <:+ ((l.template d).text ++ " ASC").toList := by simp
    rw [hdirection] at hdescending
    have hnone : ¬∃ w, s.captures.lookup .descending = some w ∧ 'ſ' ∉ w := fun h =>
      Bool.false_ne_true (hdescending.2 h)
    refine ⟨iff_of_false (not_suffix_desc hend) hnone, iff_of_true hend fun w hw => ?_⟩
    by_contra hlong
    exact hnone ⟨w, hw, hlong⟩

end OrderBy

namespace Compiler

variable {c : Compiler} {statement sql : String}

/-- The clauses of a statement are in the orders that the pattern of segments has matched, but for
words with a long s. -/
theorem order_directions (h : c.order statement = .ok sql) :
    ∃ clauses, ",\n".intercalate clauses = sql ∧ List.Forall₂
      (fun cs clause => ∃ m, OrderBy.segmentPattern.captures cs = some m ∧
        OrderBy.DirectedBy m clause)
      (splitOn ',' statement.toList) clauses := by
  obtain ⟨clauses, hclauses, hsql⟩ := OrderBy.compile_eq_ok_iff.1 h
  refine ⟨clauses, hsql, hclauses.imp fun cs clause hclause => ?_⟩
  obtain ⟨s, hs, hwritten⟩ := hclause
  refine ⟨s.captures, ?_, hwritten.directedBy hs⟩
  rw [OrderBy.captures_segmentPattern, OrderBy.Segment.read?_eq_some_iff.2 hs, Option.map_some]

/-- A descending order in letters of different case, an ascending one, and a name alone, which ends
with the letters of a direction. -/
theorem order_directions_of_three_clauses :
    ∃ sql, (ofDialect .sqlite .empty).order "title DesC,price asc , titledesc" = .ok sql ∧
      ∃ clauses, ",\n".intercalate clauses = sql ∧ List.Forall₂
        (fun cs clause => ∃ m, OrderBy.segmentPattern.captures cs = some m ∧
          OrderBy.DirectedBy m clause)
        (splitOn ',' "title DesC,price asc , titledesc".toList) clauses := by
  obtain ⟨sql, h⟩ := Except.exists_of_isOk (x := (ofDialect .sqlite .empty).order
    "title DesC,price asc , titledesc") (by decide +kernel)
  exact ⟨sql, h, order_directions h⟩

/-- A direction that is matched as the descending one, and is written as the ascending one. -/
theorem ascending_of_long_s :
    (ofDialect .sqlite .empty).order "title deſc" =
        .ok "json_extract(n.content, '$.title.value') ASC" ∧
      splitOn ',' "title deſc".toList = ["title deſc".toList] ∧
      (∃ m, OrderBy.segmentPattern.captures "title deſc".toList = some m ∧
        m.lookup .descending = some "deſc".toList) ∧
      ¬" DESC".toList <:+ "json_extract(n.content, '$.title.value') ASC".toList := by
  refine ⟨Except.eq_ok_of_toOption (by decide +kernel), by decide, ?_, by decide +kernel⟩
  have hread : OrderBy.Segment.read? "title deſc".toList =
      some ⟨"title".toList, some "deſc".toList⟩ := by decide
  refine ⟨_, by rw [OrderBy.captures_segmentPattern, hread, Option.map_some], by decide⟩

end Compiler
end ContentFilter
