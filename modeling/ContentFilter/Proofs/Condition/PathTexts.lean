import ContentFilter.Proofs.Sql.Glyph
import ContentFilter.Proofs.Sql.PathText
/-!
# The JSON path texts of a condition

PostgreSQL has three functions that take the text of a JSON path.  Which texts a template passes to
them is told by the code directly in front of a literal (`Template.pathTexts`), and it is told in
the same way from the SQL that the template is filled to (`Sql.pathTexts`): each literal stands
behind code of a known form, which no other code in front of it can change (`Template.Carries`).

The texts of a condition are its predicates and the paths it tests or ranges over
(`Condition.pathTexts`).  They are sentences of the grammar of JSON paths, with the numbers of the
filter as they are written (`Condition.sentence_of_mem_pathTexts`).
-/

namespace ContentFilter

namespace Sql

/-- The code in front of a literal that is a JSON path text. -/
def pathCalls : List String :=
  ["jsonb_path_match(n.content, ", "jsonb_path_exists(n.content, ", "jsonb_path_query(n.content, "]

/-- The code in front of the other literals. -/
def otherCalls : List String := ["->", "->>", "w.value #>> ", "jsonb_exists(n.content, "]

/-- The literals that are JSON path texts, given the code in front of the glyphs. -/
def pathTextsFrom (code : List Char) : List Glyph → List (List Char)
  | [] => []
  | .code c :: r => pathTextsFrom (code ++ [c]) r
  | .literal s :: r =>
    (if pathCalls.any fun call => call.toList.isSuffixOf code then [s] else []) ++
      pathTextsFrom [] r

/-- The literals of a text of SQL that stand directly behind a call with a JSON path. -/
def pathTexts (gs : List Glyph) : List (List Char) := pathTextsFrom [] gs

lemma pathTextsFrom_code (code cs : List Char) (gs : List Glyph) :
    pathTextsFrom code (cs.map .code ++ gs) = pathTextsFrom (code ++ cs) gs := by
  induction cs generalizing code with
  | nil => simp
  | cons c cs ih =>
    rw [List.map_cons, List.cons_append, pathTextsFrom, ih, List.append_assoc,
      List.singleton_append]

/-- What stands in front of a call does not change which call it is. -/
lemma isSuffixOf_any {x : String} (hx : x ∈ pathCalls ++ otherCalls) (code : List Char) :
    (pathCalls.any fun call => call.toList.isSuffixOf (code ++ x.toList)) =
      decide (x ∈ pathCalls) := by
  have hcalls : ∀ x ∈ pathCalls ++ otherCalls, ∀ call ∈ pathCalls,
      (x.toList <:+ call.toList → x = call) ∧ (call.toList <:+ x.toList → x = call) := by
    decide +kernel
  rw [Bool.eq_iff_iff, List.any_eq_true, decide_eq_true_eq]
  constructor
  · rintro ⟨call, hcall, hsuffix⟩
    obtain ⟨hshort, hlong⟩ := hcalls x hx call hcall
    rcases List.suffix_or_suffix_of_suffix (List.isSuffixOf_iff_suffix.1 hsuffix)
      (List.suffix_append code x.toList) with h | h
    · exact hlong h ▸ hcall
    · exact hshort h ▸ hcall
  · exact fun hcall => ⟨x, hcall, List.isSuffixOf_iff_suffix.2 (List.suffix_append _ _)⟩

end Sql

open Sql (pathCalls otherCalls)

namespace Template

/-- The literals of a template that stand directly behind a call with a JSON path. -/
def pathTexts : Template → List String
  | [] => []
  | .code x :: .literal s :: r => (if x ∈ pathCalls then [s] else []) ++ pathTexts r
  | _ :: r => pathTexts r

/-- Every literal of the template stands directly behind code of a known form, and these are the
ones that are JSON path texts. -/
inductive Carries : Template → List String → Prop
  | nil : Carries [] []
  | code {x : String} {t : Template} {texts : List String} :
      Carries t texts → Carries (.code x :: t) texts
  | hole {v : Scalar} {t : Template} {texts : List String} :
      Carries t texts → Carries (.hole v :: t) texts
  | path {x s : String} {t : Template} {texts : List String} :
      x ∈ pathCalls → Carries t texts → Carries (.code x :: .literal s :: t) (s :: texts)
  | other {x s : String} {t : Template} {texts : List String} :
      x ∈ otherCalls → Carries t texts → Carries (.code x :: .literal s :: t) texts

variable {t u expr right : Template} {texts texts' : List String}

lemma not_mem_pathCalls {x : String} (h : x ∈ otherCalls) : x ∉ pathCalls :=
  (by decide : ∀ x ∈ otherCalls, x ∉ pathCalls) x h

namespace Carries

lemma append (ht : Carries t texts) (hu : Carries u texts') :
    Carries (t ++ u) (texts ++ texts') := by
  induction ht with
  | nil => exact hu
  | code _ ih => exact .code ih
  | hole _ ih => exact .hole ih
  | path hx _ ih => exact .path hx ih
  | other hx _ ih => exact .other hx ih

/-- Code between two parts of a template. -/
lemma joined {x : String} (ht : Carries t texts) (hu : Carries u texts') :
    Carries (t ++ .code x :: u) (texts ++ texts') := ht.append (.code hu)

/-- Code behind a template. -/
lemma closed (ht : Carries t texts) (x : String) : Carries (t ++ [.code x]) texts := by
  simpa using ht.append (.code (x := x) .nil)

lemma pathTexts_eq (h : Carries t texts) : t.pathTexts = texts := by
  induction h with
  | nil => rfl
  | @code x t texts ht ih =>
    -- no template of this kind begins with a literal
    cases ht <;> exact ih
  | hole _ ih => exact ih
  | path hx _ ih => rw [pathTexts, if_pos hx, ih, List.singleton_append]
  | other hx _ ih => rw [pathTexts, if_neg (not_mem_pathCalls hx), ih, List.nil_append]

/-- The JSON path texts of a template can be read off the SQL that it is filled to. -/
lemma pathTextsFrom_glyphs (h : Carries t texts) (code : List Char) (c : Counter) :
    Sql.pathTextsFrom code (t.glyphs c) = texts.map String.toList := by
  induction h generalizing code c with
  | nil => rfl
  | code _ ih =>
    rw [glyphs, Sql.codeGlyphs, Sql.pathTextsFrom_code]
    exact ih _ c
  | hole _ ih =>
    rw [glyphs, List.cons_append, Sql.pathTextsFrom, Sql.codeGlyphs, Sql.pathTextsFrom_code]
    exact ih _ _
  | path hx _ ih =>
    rw [glyphs, Sql.codeGlyphs, Sql.pathTextsFrom_code, glyphs, Sql.pathTextsFrom,
      Sql.isSuffixOf_any (List.mem_append_left _ hx), if_pos (by simpa using hx), ih]
    rfl
  | other hx _ ih =>
    rw [glyphs, Sql.codeGlyphs, Sql.pathTextsFrom_code, glyphs, Sql.pathTextsFrom,
      Sql.isSuffixOf_any (List.mem_append_right _ hx),
      if_neg (by simpa using not_mem_pathCalls hx), ih]
    rfl

end Carries

/-! ## The parts of conditions -/

lemma carries_arrows {last : String} (h : last ∈ otherCalls) (keys : List String) :
    Carries (Dialect.arrows last keys) [] := by
  fun_induction Dialect.arrows last keys with
  | case1 => exact .nil
  | case2 => exact .other h .nil
  | case3 _ _ _ ih => exact .other (by decide) ih

lemma carries_extractText (f : FieldPath) : Carries (Dialect.extractText .postgres f) [] :=
  .code (carries_arrows (by decide) _)

lemma carries_extractJson (f : FieldPath) : Carries (Dialect.extractJson .postgres f) [] :=
  .code (carries_arrows (by decide) _)

lemma carries_contentCall {function : String} (h : function ++ "(n.content, " ∈ pathCalls)
    (s : String) : Carries (Dialect.contentCall function s) [s] := .path h (.code .nil)

lemma carries_each (f : FieldPath) : Carries (Dialect.each .postgres f) [JsonPath.ofField f] :=
  (carries_contentCall (by decide) _).closed _

lemma carries_eachItem : Carries (Dialect.eachItem .postgres) [] := .other (by decide) .nil

lemma carries_operator (o : Operator) (he : Carries expr []) (hr : Carries right []) :
    Carries (o.template .postgres expr right) [] := by
  cases o with
  | compare r => exact he.joined hr
  | like n c => cases c <;> exact he.joined hr
  | regex n c => exact he.joined hr
  | member n => exact he.joined hr

lemma carries_join {separator : String} (items : List Scalar) :
    Carries (join separator (items.map fun v => [.hole v])) [] := by
  induction items with
  | nil => exact .nil
  | cons v items ih =>
    cases items with
    | nil => exact .hole .nil
    | cons w items => exact .hole (.code ih)

lemma carries_location (l : Location) : Carries (l.template .postgres) [] := by
  cases l with
  | field f => exact carries_extractText f
  | column x => exact .code .nil

lemma carries_operand (v : Operand) : Carries (v.template .postgres) [] := by
  cases v with
  | location l => exact carries_location l
  | string s => exact .hole .nil
  | number n => exact .code .nil
  | boolean b => exact .code .nil
  | now => exact .code .nil
  | list items => exact .code ((carries_join items).closed _)

lemma carries_itemTemplate (v : Operand) : Carries (v.itemTemplate .postgres) [] :=
  carries_operand v

lemma carries_eachTemplate (f : FieldPath) (o : Operator) (v : Operand) :
    Carries (Condition.eachTemplate .postgres f o v) [JsonPath.ofField f] := by
  have hwhere := (carries_operator o carries_eachItem (carries_itemTemplate v)).closed ")"
  exact .code ((carries_each f).append (.code hwhere))

end Template

namespace Condition

open Template

/-- The JSON path texts by which PostgreSQL compares a field. -/
def comparisonTexts (f : FieldPath) (o : Operator) (right : Operand) : List String :=
  match o, right with
  | .compare r, .string s => [comparePredicate f r (JsonPath.quote s)]
  | .compare r, .number n => [comparePredicate f r n]
  | .compare r, .boolean b => [comparePredicate f r (Scalar.ofBool b)]
  | .regex _ c, .string s => [matchPredicate f c s]
  | _, .now => []
  | .compare _, .location (.field _) => []
  | _, _ => if f.wildcard.isSome then [JsonPath.ofField f] else []

/-- The JSON path texts that a condition is written with in PostgreSQL. -/
def pathTexts : Condition → List String
  | comparison (.location (.field f)) o right => comparisonTexts f o right
  | presence f => if f.isPlain then [] else [JsonPath.ofField f]
  | _ => []

/-- A comparison that is no predicate ranges over the items of a field with a wildcard. -/
lemma carries_comparison (f : FieldPath) (o : Operator) (right : Operand) :
    Carries
      (if f.wildcard.isSome then eachTemplate .postgres f o right
        else o.template .postgres (Dialect.extractText .postgres f) (right.template .postgres))
      (if f.wildcard.isSome then [JsonPath.ofField f] else []) := by
  split_ifs
  · exact carries_eachTemplate f o right
  · exact carries_operator o (carries_extractText f) (carries_operand right)

lemma carries_postgresField (f : FieldPath) (o : Operator) (right : Operand) :
    Carries (postgresField f o right) (comparisonTexts f o right) := by
  have hother := carries_comparison f
  cases right with
  | now => cases o <;> exact .code ((carries_extractText f).closed _)
  | string s =>
    cases o with
    | compare r => exact carries_contentCall (by decide) _
    | regex n c => exact .code (carries_contentCall (by decide) _)
    | _ => exact hother _ _
  | number n =>
    cases o with
    | compare r => exact carries_contentCall (by decide) _
    | _ => exact hother _ _
  | boolean b =>
    cases o with
    | compare r => exact carries_contentCall (by decide) _
    | _ => exact hother _ _
  | location l =>
    cases l with
    | field g =>
      cases o with
      | compare r => exact (carries_extractJson f).joined (carries_extractJson g)
      | _ => exact hother _ _
    | column x => cases o <;> exact hother _ _
  | list items => cases o <;> exact hother _ _

/-- The JSON path texts of a condition are those of its template. -/
theorem carries_template (c : Condition) : Carries (c.template .postgres) c.pathTexts := by
  cases c with
  | comparison left o right =>
    cases left with
    | location l =>
      cases l with
      | field f => exact carries_postgresField f o right
      | column x => exact carries_operator o (.code .nil) (carries_operand right)
    | number n => exact carries_operator o (.code .nil) (carries_operand right)
    | boolean b => exact carries_operator o (.code .nil) (carries_operand right)
  | nullity l negated => exact (carries_location l).closed _
  | presence f =>
    unfold template Dialect.presence pathTexts
    dsimp only
    split_ifs
    · exact .other (by decide) (.code .nil)
    · exact carries_contentCall (by decide) _
  | urlPath o value locale =>
    have hlocale : Carries (localeTemplate locale) [] := by
      cases locale with
      | none => exact .nil
      | some name => exact .code (.hole .nil)
    have hpath := carries_operator (o.operator?.getD (.compare .eq)) (.code (x := "up.path") .nil)
      (carries_operand value)
    exact .code ((hpath.append hlocale).closed _)

/-! ## Their grammar -/

open JsonPath (IsPath IsLiteral Sentence Numeral)

variable {number : List Char → Prop} {c : Condition}

/-- The number that PostgreSQL compares a field with inside of a JSON path. -/
def comparedNumber? : Condition → Option String
  | comparison (.location (.field _)) (.compare _) (.number n) => some n
  | _ => none

lemma toList_comparePredicate (f : FieldPath) (r : Relation) (literal : String) :
    (comparePredicate f r literal).toList =
      (JsonPath.ofField f).toList ++ ' ' :: (r.jsonPathSymbol.toList ++ ' ' :: literal.toList) := by
  simp [comparePredicate]

lemma sentence_comparePredicate {f : FieldPath} (hf : f.WellFormed) (r : Relation)
    {literal : String} (h : IsLiteral number literal.toList) :
    Sentence number (comparePredicate f r literal).toList := by
  have hsymbol : r.jsonPathSymbol ∈ JsonPath.comparisons := by cases r <;> decide
  rw [toList_comparePredicate]
  exact .comparison (JsonPath.isPath_ofField hf) hsymbol h

lemma sentence_matchPredicate {f : FieldPath} (hf : f.WellFormed) (caseless : Bool)
    (pattern : String) : Sentence number (matchPredicate f caseless pattern).toList := by
  have hflag : (if caseless then " flag \"i\"" else "") ∈ ["", " flag \"i\""] := by
    cases caseless <;> decide
  have hclose : ")".toList = [')'] := rfl
  rw [matchPredicate, String.toList_append, String.toList_append, String.toList_append,
    String.toList_append, hclose]
  exact .matching (JsonPath.isPath_ofField hf) (JsonPath.isString_quote pattern) hflag

lemma sentence_of_mem_comparisonTexts {f : FieldPath} (hf : f.WellFormed) {o : Operator}
    {right : Operand} (hnumber : ∀ r n, o = .compare r → right = .number n → number n.toList) :
    ∀ text ∈ comparisonTexts f o right, Sentence number text.toList := by
  intro text htext
  unfold comparisonTexts at htext
  split at htext
  · obtain rfl := List.mem_singleton.1 htext
    exact sentence_comparePredicate hf _ (.string (JsonPath.isString_quote _))
  · obtain rfl := List.mem_singleton.1 htext
    exact sentence_comparePredicate hf _ (.number (hnumber _ _ rfl rfl))
  · next b =>
    obtain rfl := List.mem_singleton.1 htext
    exact sentence_comparePredicate hf _ (.boolean (by cases b <;> decide))
  · obtain rfl := List.mem_singleton.1 htext
    exact sentence_matchPredicate hf _ _
  · cases htext
  · cases htext
  · obtain ⟨-, rfl⟩ := by simpa using htext
    exact .path (JsonPath.isPath_ofField hf)

/-- The texts of a condition are sentences if its fields are paths and the number it compares with
is of the form that the sentences have their numbers in. -/
theorem sentence_of_mem_pathTexts (hfields : ∀ f ∈ c.fields, f.WellFormed)
    (hnumber : ∀ n, c.comparedNumber? = some n → number n.toList) :
    ∀ text ∈ c.pathTexts, Sentence number text.toList := by
  unfold pathTexts
  split
  · next f o right =>
    have hf : f.WellFormed := hfields f (by simp [fields, Subject.fields, Location.fields])
    refine sentence_of_mem_comparisonTexts hf ?_
    rintro r n rfl rfl
    exact hnumber n rfl
  · next f =>
    intro text htext
    obtain ⟨-, rfl⟩ := by simpa using htext
    exact .path (JsonPath.isPath_ofField (hfields _ (by simp [fields])))
  · simp

/-- A number that a field is compared with is one of PostgreSQL if its text is a sentence with such
numbers. -/
lemma numeral_of_comparedNumber {n : String} (h : c.comparedNumber? = some n)
    (hn : Lexeme.Number n.toList)
    (htexts : ∀ text ∈ c.pathTexts, Sentence Numeral text.toList) : Numeral n.toList := by
  unfold comparedNumber? at h
  split at h
  · next f r m =>
    obtain rfl := Option.some.inj h
    have hsentence := htexts _ (List.mem_singleton_self _)
    rw [toList_comparePredicate, ← List.cons_append, ← List.append_assoc] at hsentence
    exact JsonPath.numeral_of_sentence hn hsentence
  · cases h

end Condition
end ContentFilter
