import ContentFilter.Compiler
import ContentFilter.Proofs.Condition.Names
import ContentFilter.Proofs.Token.Identifier
/-!
# Ordering by one name

What an order-by statement of one segment is read as.  A name of the characters that such statements
know, alone or with blanks and a direction behind it, is a segment (`OrderBy.Segment.read?_name`),
and a name with another character in it begins none (`OrderBy.Segment.read?_foreign`).  The name of
a segment is resolved to the location without a wildcard that it stands for in a filter
(`OrderBy.resolve_eq_ok_iff`).

Filters know more names than order-by statements do: their letters and numerals are those of every
script, and the name of a builtin may end with a wildcard.  So of the names that a filter reads as a
builtin or as a field without a wildcard, some cannot be ordered by; which ones is said by
`Compiler.order_name_iff`.
-/

namespace ContentFilter

open Text

namespace OrderBy

variable {d : Dialect} {b : Builtins} {c : Char} {name rest word : List Char}
  {direction : Option (List Char)}

/-! ## Characters -/

lemma toNat_lt_of_isAlphanum (h : c.isAlphanum = true) : c.toNat < 0x80 := by
  have hcases : c.isAlphanum = ((decide ('A'.val ≤ c.val ∧ c.val ≤ 'Z'.val) ||
      decide ('a'.val ≤ c.val) && decide (c.val ≤ 'z'.val)) ||
        decide ('0'.val ≤ c.val) && decide (c.val ≤ '9'.val)) := rfl
  simp only [hcases, Char.toNat, Bool.and_eq_true, decide_eq_true_eq, Bool.or_eq_true,
    UInt32.le_iff_toNat_le] at h ⊢
  have hZ : 'Z'.val.toNat = 90 := rfl
  have hz : 'z'.val.toNat = 122 := rfl
  have h9 : '9'.val.toNat = 57 := rfl
  omega

lemma toNat_lt_of_isAlpha (h : c.isAlpha = true) : c.toNat < 0x80 :=
  toNat_lt_of_isAlphanum (by simp [Char.isAlphanum, h])

lemma isNameStart_of_isAlpha (h : c.isAlpha = true) : isNameStart c = true := by
  have hall : (List.range 0x80).all fun n =>
      !(Char.ofNat n).isAlpha || isNameStart (Char.ofNat n) := by decide +kernel
  have hc := List.all_eq_true.1 hall c.toNat (List.mem_range.2 (toNat_lt_of_isAlpha h))
  rwa [Char.ofNat_toNat, h] at hc

/-- What a name begins with here is a letter, though not every letter will do. -/
lemma isLetter_of_isNameStart (h : isNameStart c = true) : isLetter c = true := by
  unfold isNameStart foldCase at h
  split_ifs at h with hs hk
  · rw [← Char.ofNat_toNat c, hs]
    decide +kernel
  · rw [← Char.ofNat_toNat c, hk]
    decide +kernel
  · have halpha : c.isAlpha = true := by
      have hcases : c.isAlpha = (decide ('A'.val ≤ c.val ∧ c.val ≤ 'Z'.val) || c.isLower) := rfl
      rw [hcases, Bool.or_eq_true, decide_eq_true_eq]
      unfold Char.toLower at h
      split at h
      · next hupper => exact .inl hupper
      · exact .inr h
    exact isLetter_of_isAlpha halpha (toNat_lt_of_isAlpha halpha)

lemma isNameStart_of_isNamePart (h : isNamePart c = true) (hc : isLetter c = true) :
    isNameStart c = true := by
  simp only [isNamePart, Bool.or_eq_true, decide_eq_true_eq] at h
  rcases h with (((h | h) | rfl) | rfl) | rfl
  · exact h
  · rw [Lexeme.isLetter_of_isDigit h] at hc
    cases hc
  all_goals exact absurd hc (by decide)

lemma inName_of_isNamePart (h : isNamePart c = true) : Lexeme.inName c = true := by
  simp only [isNamePart, Bool.or_eq_true, decide_eq_true_eq] at h
  simp only [Lexeme.inName, isNameChar, isAlnum, Bool.or_eq_true, decide_eq_true_eq]
  rcases h with (((h | h) | rfl) | rfl) | rfl
  · simp [isLetter_of_isNameStart h]
  · have hascii := toNat_lt_of_isAlphanum (by simp [Char.isAlphanum, h] : c.isAlphanum = true)
    simp [isNumeral, hascii, h]
  all_goals simp

/-- The letters of a word that is known up to case are letters of names. -/
lemma isNameStart_of_map_foldCase {w : List Char} (hw : w.all Char.isLower = true)
    (h : word.map foldCase = w) : ∀ c ∈ word, isNameStart c = true := by
  intro c hc
  exact List.all_eq_true.1 hw _ (h ▸ List.mem_map_of_mem hc)

lemma isNameStart_of_mem_direction (h : isDirection word = true) (hc : c ∈ word) :
    isNameStart c = true := by
  simp only [isDirection, Bool.or_eq_true, decide_eq_true_eq] at h
  rcases h with h | h <;> exact isNameStart_of_map_foldCase (by decide) h c hc

/-! ## Segments -/

/-- A text that order-by statements know as a name. -/
structure IsName (name : List Char) : Prop where
  /-- It begins with a letter they know. -/
  head : name.head?.any isNameStart = true
  /-- It is made of the characters they know. -/
  part : ∀ c ∈ name, isNamePart c = true

lemma IsName.head_isLetter (h : IsName name) : name.head?.any isLetter = true := by
  obtain ⟨c, hc, hstart⟩ := (Option.any_eq_true _ _).1 h.head
  rw [hc]
  exact isLetter_of_isNameStart hstart

lemma IsName.inName (h : IsName name) : ∀ c ∈ name, Lexeme.inName c = true := fun c hc =>
  inName_of_isNamePart (h.part c hc)

lemma isName_of_isLetter (hletter : name.head?.any isLetter = true)
    (hpart : ∀ c ∈ name, isNamePart c = true) : IsName name where
  head := by
    obtain ⟨c, hc, hletter⟩ := (Option.any_eq_true _ _).1 hletter
    rw [hc]
    exact isNameStart_of_isNamePart (hpart c (List.mem_of_mem_head? hc)) hletter
  part := hpart

/-- A known name has no wildcard in it. -/
lemma IsName.not_isWildcard (h : IsName name) : ∀ c ∈ name, Lexeme.isWildcard c = false := by
  intro c hc
  have hpart := h.part c hc
  rw [Lexeme.isWildcard, Bool.or_eq_false_iff, decide_eq_false_iff_not, decide_eq_false_iff_not]
  constructor <;>
    · rintro rfl
      revert hpart
      decide

/-- What begins with an ASCII letter and goes on with ASCII letters, digits, underscores, dots and
hyphens is a known name. -/
lemma isName_of_ascii (hletter : name.head?.any Char.isAlpha = true)
    (hname : ∀ c ∈ name, c.isAlphanum = true ∨ c ∈ ['_', '.', '-']) : IsName name where
  head := by
    obtain ⟨c, hc, halpha⟩ := (Option.any_eq_true _ _).1 hletter
    rw [hc]
    exact isNameStart_of_isAlpha halpha
  part := by
    intro c hc
    rcases hname c hc with halnum | hmark
    · rw [Char.isAlphanum, Bool.or_eq_true] at halnum
      rcases halnum with halpha | hdigit
      · simp [isNamePart, isNameStart_of_isAlpha halpha]
      · simp [isNamePart, hdigit]
    · simp only [List.mem_cons, List.not_mem_nil, or_false] at hmark
      rcases hmark with rfl | rfl | rfl <;> decide

/-- What may stand behind a name in a segment, and the direction that is read there. -/
inductive Ending : List Char → Option (List Char) → Prop
  | nothing : Ending [] none
  | word {gap word : List Char} :
      gap ≠ [] → (∀ c ∈ gap, isBlank c = true) → isDirection word = true →
      Ending (gap ++ word) (some word)

lemma not_isBlank_of_inName (h : Lexeme.inName c = true) : isBlank c = false := by
  have hgap := Lexeme.not_isGap_of_inName h
  simp only [isGap, Bool.or_eq_false_iff] at hgap
  exact hgap.1

lemma not_isBlank_of_isNamePart (h : isNamePart c = true) : isBlank c = false :=
  not_isBlank_of_inName (inName_of_isNamePart h)

lemma not_isBlank_of_isNameStart (h : isNameStart c = true) : isBlank c = false :=
  not_isBlank_of_isNamePart (by simp [isNamePart, h])

lemma not_isNamePart_of_isBlank (h : isBlank c = true) : isNamePart c = false := by
  by_contra hpart
  rw [not_isBlank_of_isNamePart (by simpa using hpart)] at h
  cases h

namespace Segment

/-- A segment is its name and what stands behind the blanks after the name. -/
lemma read?_append (hname : IsName name) (hrest : ∀ c ∈ rest.head?, isNamePart c = false) :
    read? (name ++ rest) =
      if (rest.dropWhile isBlank).isEmpty then some ⟨name, none⟩
      else if isDirection ((rest.dropWhile isBlank).takeWhile (!isBlank ·)) &&
          ((rest.dropWhile isBlank).dropWhile (!isBlank ·)).all isBlank then
        some ⟨name, some ((rest.dropWhile isBlank).takeWhile (!isBlank ·))⟩
      else none := by
  obtain ⟨c, r, rfl⟩ : ∃ c r, name = c :: r := by
    cases name with
    | nil => exact absurd hname.head (by simp)
    | cons c r => exact ⟨c, r, rfl⟩
  have hlead : (c :: r ++ rest).dropWhile isBlank = c :: r ++ rest := by
    rw [List.cons_append,
      List.dropWhile_cons_of_neg (by simp [not_isBlank_of_isNamePart (hname.part c (by simp))])]
  obtain ⟨htaken, hdropped⟩ := span_append hname.part hrest
  have hhead : (c :: r ++ rest).head?.any isNameStart = true := hname.head
  rw [read?, hlead, htaken, hdropped, if_pos hhead]

/-- A name is read with the direction behind it. -/
lemma read?_name (hname : IsName name) (hending : Ending rest direction) :
    read? (name ++ rest) = some ⟨name, direction⟩ := by
  cases hending with
  | nothing =>
    rw [read?_append hname (by simp)]
    rfl
  | @word gap word hne hgap hword =>
    have hblank : ∀ c ∈ word, isBlank c = false := fun c hc =>
      not_isBlank_of_isNameStart (isNameStart_of_mem_direction hword hc)
    have hrest : ∀ c ∈ (gap ++ word).head?, isNamePart c = false := by
      intro c hc
      have hc' : c ∈ gap := by
        cases gap with
        | nil => exact absurd rfl hne
        | cons e es =>
          obtain rfl := Option.some.inj hc
          exact List.mem_cons_self
      exact not_isNamePart_of_isBlank (hgap c hc')
    have hbehind : (gap ++ word).dropWhile isBlank = word :=
      (span_append hgap fun c hc => hblank c (List.mem_of_mem_head? hc)).2
    have hnonempty : word ≠ [] := by
      rintro rfl
      revert hword
      decide
    have htaken : word.takeWhile (!isBlank ·) = word :=
      List.takeWhile_eq_self_iff.2 fun c hc => by simp [hblank c hc]
    have hdropped : word.dropWhile (!isBlank ·) = [] :=
      List.dropWhile_eq_nil_iff.2 fun c hc => by simp [hblank c hc]
    rw [read?_append hname hrest, hbehind, htaken, hdropped]
    simp [hnonempty, hword]

/-- A text that begins with a letter and has a character in it that no name here has, before any
blank, is no segment. -/
lemma read?_foreign (hletter : name.head?.any isLetter = true)
    (hblank : ∀ c ∈ name, isBlank c = false) (hforeign : ∃ c ∈ name, isNamePart c = false) :
    read? (name ++ rest) = none := by
  -- the name is known up to its first foreign character, and what follows is no direction
  obtain ⟨c, hfirst⟩ : ∃ c, name.find? (!isNamePart ·) = some c :=
    Option.isSome_iff_exists.1 (List.find?_isSome.2 (by simpa using hforeign))
  obtain ⟨hc, known, behind, rfl, hknown⟩ := List.find?_eq_some_iff_append.1 hfirst
  simp only [Bool.not_eq_true', Bool.not_not] at hc hknown
  have hcblank : isBlank c = false := hblank c (by simp)
  have hstart : isNameStart c = false := by
    simp only [isNamePart, Bool.or_eq_false_iff] at hc
    exact hc.1.1.1.1
  cases known with
  | nil =>
    rw [List.nil_append, List.cons_append, read?,
      List.dropWhile_cons_of_neg (by simp [hcblank])]
    simp [hstart]
  | cons e es =>
    have hname : IsName (e :: es) := isName_of_isLetter hletter hknown
    have hbehind : (c :: behind ++ rest).dropWhile isBlank = c :: behind ++ rest := by
      rw [List.cons_append, List.dropWhile_cons_of_neg (by simp [hcblank])]
    have hdirection : isDirection ((c :: behind ++ rest).takeWhile (!isBlank ·)) = false := by
      by_contra hdirection
      rw [Bool.not_eq_false] at hdirection
      have hmem : c ∈ (c :: behind ++ rest).takeWhile (!isBlank ·) := by
        simp [hcblank]
      rw [isNameStart_of_mem_direction hdirection hmem] at hstart
      cases hstart
    rw [List.append_assoc, read?_append hname (by simpa using hc), hbehind, hdirection]
    simp

end Segment

/-! ## Statements of one segment -/

/-- A name is resolved to the location without a wildcard that it stands for. -/
lemma resolve_eq_ok_iff {expr : String} :
    resolve d b name = .ok expr ↔ ∃ (t : Token) (l : Location),
      Token.ofSource b (String.ofList name) = .ok [t] ∧ l.Reads b t ∧ l.hasWildcard = false ∧
        (l.template d).text = expr := by
  constructor
  · intro h
    unfold resolve at h
    split at h
    · next t ht =>
      split at h
      · next hk =>
        split at h
        · next column hcolumn =>
          refine ⟨t, .column column, ht, .column hk hcolumn, rfl, ?_⟩
          simpa [Location.template, Template.text] using Except.ok.inj h
        · simp [refuse] at h
      · next hk =>
        split at h
        · next f hf =>
          split_ifs at h with hplain
          exact ⟨t, .field f, ht, .field hk hf, by simpa [Location.hasWildcard] using hplain,
            Except.ok.inj h⟩
        · simp at h
      · simp at h
    · simp at h
  · rintro ⟨t, l, ht, hl, hplain, rfl⟩
    rw [resolve, ht]
    cases hl with
    | @field f hk hf =>
      have hnone : f.wildcard.isNone = true := by simpa [Location.hasWildcard] using hplain
      simp only [hk, hf]
      exact if_pos hnone
    | column hk hcolumn => simp [hk, hcolumn, Location.template, Template.text]

/-- A text of the characters of names is resolved to the location that it stands for as a name. -/
lemma resolve_name_eq_ok_iff {expr : String} (hletter : name.head?.any isLetter = true)
    (hname : ∀ c ∈ name, Lexeme.inName c = true) :
    resolve d b name = .ok expr ↔
      ∃ l : Location, l.NamedBy b name ∧ (l.template d).text = expr := by
  have hsource : ∀ {ts : List Token}, Token.ofSource b (String.ofList name) = .ok ts ↔ _ :=
    Token.ofSource_name_iff (by rwa [String.toList_ofList]) (by rwa [String.toList_ofList])
  simp only [resolve_eq_ok_iff, hsource, String.toList_ofList]
  constructor
  · rintro ⟨t, l, ⟨hname, ht⟩, hl, hplain, hexpr⟩
    obtain rfl := List.singleton_inj.1 ht
    exact ⟨l, ⟨hname, hl, hplain⟩, hexpr⟩
  · rintro ⟨l, ⟨hname, hl, hplain⟩, hexpr⟩
    exact ⟨_, l, ⟨hname, rfl⟩, hl, hplain, hexpr⟩

lemma compile_of_notMem {statement : String} (hcomma : ',' ∉ statement.toList)
    (hne : trim statement.toList ≠ []) : compile d b statement = clause d b statement.toList := by
  rw [compile, if_neg (by simpa using hne), splitOn, List.splitOn_eq_singleton hcomma]
  cases h : clause d b statement.toList <;> simp [h, bind, Except.bind, pure, Except.pure]

/-- A name with what may stand behind it is one segment. -/
lemma compile_eq_clause (hletter : name.head?.any isLetter = true)
    (hname : ∀ c ∈ name, Lexeme.inName c = true) (hending : Ending rest direction) :
    compile d b (String.ofList (name ++ rest)) = clause d b (name ++ rest) := by
  have hcomma : ∀ {c : Char}, Lexeme.inName c = true → c ≠ ',' := by
    rintro c hc rfl
    revert hc
    decide
  have hrest : ',' ∉ rest := by
    cases hending with
    | nothing => simp
    | word _ hgap hword =>
      intro hmem
      rcases List.mem_append.1 hmem with hmem | hmem
      · exact absurd (hgap _ hmem) (by decide)
      · exact absurd (isNameStart_of_mem_direction hword hmem) (by decide)
  obtain ⟨c, hc, hblank⟩ : ∃ c ∈ name, isBlank c = false := by
    cases name with
    | nil => simp at hletter
    | cons c r => exact ⟨c, by simp, not_isBlank_of_inName (hname c (by simp))⟩
  have hnotMem : ',' ∉ name ++ rest := fun hmem =>
    (List.mem_append.1 hmem).elim (fun h => hcomma (hname _ h) rfl) hrest
  have hne : trim (name ++ rest) ≠ [] := trim_ne_nil (List.mem_append_left _ hc) hblank
  rw [compile_of_notMem (by rwa [String.toList_ofList]) (by rwa [String.toList_ofList]),
    String.toList_ofList]

/-- A known name is ordered by the location that it is resolved to. -/
lemma compile_name (hname : IsName name) (hending : Ending rest direction) :
    compile d b (String.ofList (name ++ rest)) =
      (resolve d b name).map
        (· ++ if (⟨name, direction⟩ : Segment).isDescending then " DESC" else " ASC") := by
  rw [compile_eq_clause hname.head_isLetter hname.inName hending, clause,
    Segment.read?_name hname hending]
  cases h : resolve d b name <;> simp [h, Except.map, bind, Except.bind, pure, Except.pure]

/-- A name with a foreign character in it is refused. -/
lemma compile_foreign (hletter : name.head?.any isLetter = true)
    (hname : ∀ c ∈ name, Lexeme.inName c = true) (hforeign : ∃ c ∈ name, isNamePart c = false)
    (hending : Ending rest direction) :
    compile d b (String.ofList (name ++ rest)) =
      .error (refuse (.invalidSegment (String.ofList (trim (name ++ rest))))) := by
  rw [compile_eq_clause hletter hname hending, clause, Segment.read?_foreign hletter
    (fun c hc => not_isBlank_of_inName (hname c hc)) hforeign]

end OrderBy

/-! ## Names that filters know -/

namespace Compiler

/-- A name that a filter reads as a builtin, or as a field without a wildcard, can be ordered by
exactly if order-by statements know all of its characters, whether it stands alone or with blanks and
a direction behind it.  Otherwise the statement is refused, since it is no segment. -/
theorem order_name_iff (c : Compiler) {text : String} {t : Token} {rest : List Char}
    {direction : Option (List Char)} (htext : Token.ofSource c.builtins text = .ok [t])
    (hspan : t.span = ⟨0, text.toList.length⟩)
    (hkind : t.kind = .builtin ∨
      t.kind = .field ∧ ∀ ch ∈ text.toList, Lexeme.isWildcard ch = false)
    (hending : OrderBy.Ending rest direction) :
    ((∃ sql, c.order (text ++ String.ofList rest) = .ok sql) ↔
      ∀ ch ∈ text.toList, OrderBy.isNamePart ch = true) ∧
    ((∃ ch ∈ text.toList, OrderBy.isNamePart ch = false) →
      c.order (text ++ String.ofList rest) = .error (OrderBy.refuse (.invalidSegment
        (String.ofList (trim (text ++ String.ofList rest).toList))))) := by
  have hk : t.kind ∈ Lexeme.nameKinds := by
    rcases hkind with hk | ⟨hk, -⟩ <;> rw [hk] <;> decide
  obtain ⟨hname, rfl⟩ := (Token.ofSource_eq_ok_iff_tiled.1 htext).name_of_whole hspan hk
  have happend : text ++ String.ofList rest = String.ofList (text.toList ++ rest) := by
    rw [String.ofList_append, String.ofList_toList]
  have hforeign : (∃ ch ∈ text.toList, OrderBy.isNamePart ch = false) →
      c.order (text ++ String.ofList rest) = .error (OrderBy.refuse (.invalidSegment
        (String.ofList (trim (text ++ String.ofList rest).toList)))) := by
    intro hforeign
    rw [happend, String.toList_ofList]
    exact OrderBy.compile_foreign hname.head_isLetter hname.forall_inName hforeign hending
  refine ⟨⟨?_, fun hpart => ?_⟩, hforeign⟩
  · rintro ⟨sql, hsql⟩
    by_contra hpart
    rw [hforeign (by simpa using hpart)] at hsql
    cases hsql
  · have hknown := OrderBy.isName_of_isLetter hname.head_isLetter hpart
    obtain ⟨l, hl⟩ := Location.exists_namedBy_iff.2 ⟨hname, hkind⟩
    have hresolve : OrderBy.resolve c.dialect c.builtins text.toList =
        .ok (l.template c.dialect).text :=
      (OrderBy.resolve_name_eq_ok_iff hname.head_isLetter hname.forall_inName).2 ⟨l, hl, rfl⟩
    rw [happend, order, OrderBy.compile_name hknown hending, hresolve]
    exact ⟨_, rfl⟩

/-- A name with letters outside of ASCII. -/
lemma name_with_umlaut : Lexeme.Name "größe".toList :=
  .letter (by decide) (.char (by decide) (.char (by decide +kernel)
    (.char (by decide +kernel) (.char (by decide) .nil))))

/-- A builtin in descending order, and a field with letters outside of ASCII. -/
theorem order_name_iff_of_two_names :
    let c : Compiler := ⟨.sqlite, Table.empty.insert "id" "n.id", .default⟩
    ∃ t u, Token.ofSource c.builtins "id" = .ok [t] ∧ t.span = ⟨0, "id".toList.length⟩ ∧
      t.kind = .builtin ∧ OrderBy.Ending " desc".toList (some "desc".toList) ∧
      ((∃ sql, c.order "id desc" = .ok sql) ↔ ∀ ch ∈ "id".toList, OrderBy.isNamePart ch = true) ∧
      Token.ofSource c.builtins "größe" = .ok [u] ∧ u.span = ⟨0, "größe".toList.length⟩ ∧
      u.kind = .field ∧ (∀ ch ∈ "größe".toList, Lexeme.isWildcard ch = false) ∧
      (∃ ch ∈ "größe".toList, OrderBy.isNamePart ch = false) ∧
      c.order "größe" = .error (OrderBy.refuse (.invalidSegment "größe")) := by
  intro c
  have hid : Lexeme.Name "id".toList := .letter (by decide) (.char (by decide) .nil)
  have hbuiltin : Lexeme.classify c.builtins "id".toList = .builtin := by decide +kernel
  have hfield : Lexeme.classify c.builtins "größe".toList = .field := by decide +kernel
  have hforeign : ∃ ch ∈ "größe".toList, OrderBy.isNamePart ch = false :=
    ⟨'ö', by decide, by decide⟩
  have hending : OrderBy.Ending " desc".toList (some "desc".toList) :=
    @OrderBy.Ending.word [' '] "desc".toList (by simp) (by simp [isBlank]) (by decide)
  have hplain : ∀ ch ∈ "größe".toList, Lexeme.isWildcard ch = false := by
    simp [Lexeme.isWildcard]
  have htext := Token.ofSource_of_name c.builtins hid
  have htext' := Token.ofSource_of_name c.builtins name_with_umlaut
  refine ⟨_, _, htext, rfl, hbuiltin, hending, ?_, htext', rfl, hfield, hplain, hforeign, ?_⟩
  · exact (order_name_iff c htext rfl (.inl hbuiltin) hending).1
  · exact (order_name_iff c htext' rfl (.inr ⟨hfield, hplain⟩) .nothing).2 hforeign

/-- A field with letters outside of ASCII can be filtered on, but it cannot be ordered by. -/
theorem not_order_of_foreign_letter :
    (∃ t, Token.ofSource .empty "größe" = .ok [t] ∧ t.span = ⟨0, "größe".toList.length⟩ ∧
        t.kind = .field ∧ ∀ ch ∈ "größe".toList, Lexeme.isWildcard ch = false) ∧
      (∃ fragment, (ofDialect .postgres .empty).compile "größe = 1" = .ok fragment) ∧
      ¬∃ sql, (ofDialect .postgres .empty).order "größe" = .ok sql := by
  refine ⟨⟨_, Token.ofSource_of_name _ name_with_umlaut, rfl, by decide +kernel,
    by simp [Lexeme.isWildcard]⟩,
    Except.exists_of_isOk (by decide +kernel), ?_⟩
  rintro ⟨sql, hsql⟩
  have hrefused : ((ofDialect .postgres .empty).order "größe").isOk = false := by decide +kernel
  rw [hsql] at hrefused
  cases hrefused

end Compiler
end ContentFilter
