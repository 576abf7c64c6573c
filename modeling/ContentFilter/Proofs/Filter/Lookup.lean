import ContentFilter.Proofs.Filter.Compiled
import ContentFilter.Proofs.Filter.Parallel
import ContentFilter.Proofs.Token.Identifier
/-!
# Looking builtins up

Builtins are looked up when names are classified, when operands are resolved, and in order-by
statements.  In all three places the name is a word of the text that is not reserved.  So a text is
compiled in the same way with all builtins that agree on these words (`Compiler.parse_congr`,
`OrderBy.compile_congr`), and a builtin that is reserved or does not occur has no effect.  On the
other hand a name that is in the table and not reserved is never taken for a field
(`Compiler.builtin_lookup`).
-/

namespace ContentFilter

open Builtins ContentFilter.Filter
open Token (IsLexeme)

/-! ## Order-by statements -/

namespace OrderBy

variable {d : Dialect} {b b' : Builtins}

lemma Segment.infix_of_read? {cs : List Char} {s : Segment} (h : read? cs = some s) :
    s.name <:+: cs := by
  have hname : (cs.dropWhile Text.isBlank).takeWhile isNamePart <:+: cs :=
    (List.takeWhile_prefix _).isInfix.trans (List.dropWhile_suffix _).isInfix
  unfold read? at h
  simp only at h
  split_ifs at h
  · exact Option.some.inj h ▸ hname
  · exact Option.some.inj h ▸ hname

lemma resolve_congr {name : List Char} (h : AgreeIn name b b') :
    resolve d b name = resolve d b' name := by
  have hagree : AgreeIn (String.ofList name).toList b b' := by rwa [String.toList_ofList]
  unfold resolve
  rw [Token.ofSource_congr hagree]
  split
  · next t ht =>
    have htiled := Token.ofSource_eq_ok_iff_tiled.1 (Token.ofSource_congr hagree ▸ ht)
    split
    · next hk => rw [htiled.column_eq hagree List.mem_cons_self hk]
    · rfl
    · rfl
  · rfl

lemma clause_congr {cs : List Char} (h : AgreeIn cs b b') : clause d b cs = clause d b' cs := by
  unfold clause
  split
  · rfl
  · next s hs => rw [resolve_congr (h.mono (Segment.infix_of_read? hs))]

lemma mem_intersperse {α : Type} {a sep : α} {as : List α} (h : a ∈ as) :
    a ∈ as.intersperse sep := by
  induction as with
  | nil => simp at h
  | cons b bs ih =>
    cases bs with
    | nil => simpa using h
    | cons c cs =>
      rw [List.intersperse_cons_cons]
      rcases List.mem_cons.1 h with rfl | h
      · exact List.mem_cons_self
      · exact List.mem_cons_of_mem _ (List.mem_cons_of_mem _ (ih h))

/-- The parts between separators occur in the text. -/
lemma infix_of_mem_splitOn {sep : Char} {cs part : List Char} (h : part ∈ Text.splitOn sep cs) :
    part <:+: cs := by
  have hmem : part ∈ (Text.splitOn sep cs).intersperse [sep] := mem_intersperse h
  have hpart := List.infix_of_mem_flatten hmem
  rwa [← List.intercalate, List.intercalate_splitOn] at hpart

/-- Builtins that agree on the words of an order-by statement give it the same SQL or the same
error. -/
theorem compile_congr {statement : String} (h : AgreeIn statement.toList b b') :
    compile d b statement = compile d b' statement := by
  unfold compile
  rw [Except.mapM_congr fun cs hcs => clause_congr (h.mono (infix_of_mem_splitOn hcs))]

/-- A builtin orders by its column. -/
lemma resolve_of_builtin {name column : String} (hname : Lexeme.Name name.toList)
    (hfree : isReserved name = false) (hcolumn : b.column? name = some column) :
    resolve d b name.toList = .ok column := by
  have hkind : Lexeme.classify b name.toList = .builtin := by
    rw [Lexeme.classify_of_not_reserved (by simpa using hfree), contains_eq_isSome,
      String.ofList_toList, hcolumn]
    rfl
  unfold resolve
  rw [String.ofList_toList, Token.ofSource_of_name b hname, hkind]
  simp only [Token.plain, hcolumn]

end OrderBy

/-! ## Filters -/

namespace Compiler

variable {d : Dialect} {b b' : Builtins} {stem : Stem} {query : String}

/-- Builtins that agree on the words of a filter give it the same nodes or the same error. -/
theorem parse_congr (h : AgreeIn query.toList b b') :
    (⟨d, b, stem⟩ : Compiler).parse query = (⟨d, b', stem⟩ : Compiler).parse query := by
  have hrel := parse_rel_of_same_tokens ⟨d, b, stem⟩ ⟨d, b', stem⟩ query
    (Token.ofSource_congr h) fun ts hts t ht hk =>
      (Token.ofSource_eq_ok_iff_tiled.1 hts).column_eq h ht hk
  exact (hrel.mono (fun _ _ he => he) fun _ _ => Node.Translates.eq_of_forall₂).eq

lemma compileInto_congr (h : AgreeIn query.toList b b') (sink : Sink) :
    (⟨d, b, stem⟩ : Compiler).compileInto query sink =
      (⟨d, b', stem⟩ : Compiler).compileInto query sink := by
  rw [compileInto, compileInto, parse_congr h]

lemma compile_congr (h : AgreeIn query.toList b b') :
    (⟨d, b, stem⟩ : Compiler).compile query = (⟨d, b', stem⟩ : Compiler).compile query := by
  rw [compile, compile, compileInto_congr h]

/-- A name in the table that is not reserved is read as a builtin. -/
lemma kind_eq_builtin {t : Token} (ht : IsLexeme b t) (hk : t.kind ∈ Lexeme.nameKinds)
    (hfree : isReserved t.lexeme = false) (hb : b.contains t.lexeme = true) :
    t.kind = .builtin := by
  rw [ht.kind_eq_classify hk, Lexeme.classify_of_not_reserved (by simpa using hfree),
    String.ofList_toList, if_pos hb]

/-- No field of a filter that is accepted has the name of a builtin, unless the name is
reserved. -/
lemma ofText?_ne_of_builtin {c : Compiler} {ns : List Node} (h : c.parse query = .ok ns)
    {condition : Condition} (hmem : .condition d condition ∈ ns) {f : FieldPath}
    (hf : f ∈ condition.fields) {name : String} (hfree : isReserved name = false)
    (hb : c.builtins.contains name = true) : FieldPath.ofText? name ≠ some f := by
  intro htext
  obtain ⟨ts, clause, hts, hclause, htokens⟩ := exists_clause_of_parse h hmem
  obtain ⟨t, ht, hfield⟩ := Clause.exists_field hclause hf
  -- the token that the field was read from has this very name, and would be a builtin
  obtain rfl := FieldPath.eq_of_ofText? htext hfield.2
  have hlexeme : IsLexeme c.builtins t := by
    rcases fromSource_of_mem_tokens hts (htokens t ht) with hlexeme | ⟨_, _, _, rfl, -⟩
    · exact hlexeme
    · cases hfield.1
  have hbuiltin := kind_eq_builtin hlexeme (by rw [hfield.1]; decide) hfree hb
  rw [hfield.1] at hbuiltin
  cases hbuiltin

/-- A builtin has no effect on a text if its name is reserved or does not occur in the text: the
text is parsed, compiled and ordered by as without it, with the same SQL, parameters or error.  On
the other hand, a name among the tokens that is in the table and not reserved is a builtin; no field
in a condition of an accepted filter is the path that such a name would be read as, and a name on
its own is ordered by its column. -/
theorem builtin_lookup (d : Dialect) (b : Builtins) (stem : Stem) (text : String) :
    (∀ name column, isReserved name = true ∨ ¬name.toList <:+: text.toList →
      (⟨d, b.insert name column, stem⟩ : Compiler).parse text =
          (⟨d, b, stem⟩ : Compiler).parse text ∧
        (∀ sink, (⟨d, b.insert name column, stem⟩ : Compiler).compileInto text sink =
          (⟨d, b, stem⟩ : Compiler).compileInto text sink) ∧
        (⟨d, b.insert name column, stem⟩ : Compiler).compile text =
          (⟨d, b, stem⟩ : Compiler).compile text ∧
        (⟨d, b.insert name column, stem⟩ : Compiler).order text =
          (⟨d, b, stem⟩ : Compiler).order text) ∧
    (∀ ts, Token.ofSource b text = .ok ts → ∀ t ∈ ts, t.kind ∈ Lexeme.nameKinds →
      isReserved t.lexeme = false → b.contains t.lexeme = true → t.kind = .builtin) ∧
    (∀ ns, (⟨d, b, stem⟩ : Compiler).parse text = .ok ns →
      ∀ condition, .condition d condition ∈ ns → ∀ f ∈ condition.fields, ∀ name,
        isReserved name = false → b.contains name = true → FieldPath.ofText? name ≠ some f) ∧
    (Lexeme.Name text.toList → isReserved text = false → ∀ column, b.column? text = some column →
      OrderBy.resolve d b text.toList = .ok column) := by
  refine ⟨fun name column h => ?_, fun ts hts t ht hk hfree hb => ?_,
    fun ns hns condition hmem f hf name hfree hb => ?_, fun hname hfree column hcolumn => ?_⟩
  · have hagree := agreeIn_insert h b column
    exact ⟨parse_congr hagree, compileInto_congr hagree, compile_congr hagree,
      OrderBy.compile_congr hagree⟩
  · exact kind_eq_builtin (Scanner.exists_lexeme_of_mem_tokens hts ht) hk hfree hb
  · exact ofText?_ne_of_builtin (c := ⟨d, b, stem⟩) hns hmem hf hfree hb
  · exact OrderBy.resolve_of_builtin hname hfree hcolumn

/-- A filter with a builtin and a field.  A reserved name and a name that does not occur have no
effect; the builtin is no field, and on its own it is ordered by its column. -/
theorem builtin_lookup_of_id :
    let b : Builtins := Table.empty.insert "id" "n.id"
    isReserved "path.de" = true ∧ ¬"author".toList <:+: "id > title".toList ∧
      (⟨.postgres, b.insert "path.de" "x", .default⟩ : Compiler).compile "id > title" =
        (⟨.postgres, b, .default⟩ : Compiler).compile "id > title" ∧
      (⟨.postgres, b.insert "author" "x", .default⟩ : Compiler).compile "id > title" =
        (⟨.postgres, b, .default⟩ : Compiler).compile "id > title" ∧
      isReserved "id" = false ∧ b.contains "id" = true ∧
      (∃ ts, Token.ofSource b "id > title" = .ok ts ∧ ∀ t ∈ ts, t.kind ∈ Lexeme.nameKinds →
        isReserved t.lexeme = false → b.contains t.lexeme = true → t.kind = .builtin) ∧
      (∃ ns, (⟨.postgres, b, .default⟩ : Compiler).parse "id > title" = .ok ns ∧
        ∀ condition, .condition .postgres condition ∈ ns → ∀ f ∈ condition.fields,
          FieldPath.ofText? "id" ≠ some f) ∧
      OrderBy.resolve .postgres b "id".toList = .ok "n.id" := by
  intro b
  have hreserved : isReserved "path.de" = true := by decide
  have habsent : ¬"author".toList <:+: "id > title".toList := by decide +kernel
  have hfree : isReserved "id" = false := by decide
  have hb : b.contains "id" = true := by decide
  have hname : Lexeme.Name "id".toList := .letter (by decide) (.char (by decide) .nil)
  obtain ⟨ts, hts⟩ : ∃ ts, Token.ofSource b "id > title" = .ok ts :=
    Except.exists_of_isOk (by decide +kernel)
  obtain ⟨ns, hns⟩ : ∃ ns, (⟨.postgres, b, .default⟩ : Compiler).parse "id > title" = .ok ns :=
    Except.exists_of_isOk (by decide +kernel)
  obtain ⟨hunused, htokens, hfields, -⟩ := builtin_lookup .postgres b .default "id > title"
  obtain ⟨-, -, -, horder⟩ := builtin_lookup .postgres b .default "id"
  exact ⟨hreserved, habsent, (hunused _ "x" (.inl hreserved)).2.2.1,
    (hunused _ "x" (.inr habsent)).2.2.1, hfree, hb, ⟨ts, hts, htokens ts hts⟩,
    ⟨ns, hns, fun condition hmem f hf => hfields ns hns condition hmem f hf "id" hfree hb⟩,
    horder hname hfree _ (by decide)⟩

end Compiler
end ContentFilter
