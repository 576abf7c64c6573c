import ContentFilter.Proofs.Sql.Address
import ContentFilter.Proofs.Sql.Connective
/-!
# The accesses to the content in SQL

The content of a node is a column, and SQL takes a value from it in one of two ways: it goes along
keys by arrows, or it passes the column to a function together with a literal.  `Sql.accesses` finds
every place of a text where the column is mentioned outside of literals, and reads there how it is
accessed.  It knows nothing of how the text was made.

An access leads to a place in the content (`Access.address?`).  The keys behind arrows are given by
themselves, the literal of `jsonb_exists` is a key, and the literals of the other functions are JSON
paths, which some of them take together with a predicate.
-/

namespace ContentFilter

/-- How a value is taken from the content of a node. -/
inductive Access where
  /-- By arrows along some keys. -/
  | arrows (keys : List String)
  /-- By a function that is called with the content and a literal. -/
  | call (function argument : String)
deriving DecidableEq, Repr

namespace Access

/-- The functions whose literal is a JSON path. -/
def pathFunctions : List String := ["json_extract", "json_each", "json_type", "jsonb_path_query"]

/-- The functions whose literal is a JSON path, perhaps with a predicate behind it. -/
def predicateFunctions : List String := ["jsonb_path_exists", "jsonb_path_match"]

/-- The functions that are called with the content. -/
def functions : List String := "jsonb_exists" :: (pathFunctions ++ predicateFunctions)

/-- The place in the content that an access leads to. -/
def address? : Access → Option Address
  | arrows keys => some ⟨keys, none⟩
  | call function argument =>
    if function = "jsonb_exists" then some ⟨[argument], none⟩
    else
      match JsonPath.readAddress argument.toList with
      | some (a, []) => if function ∈ functions then some a else none
      | some (a, ' ' :: _) => if function ∈ predicateFunctions then some a else none
      | _ => none

variable {function argument : String} {a : Address} {f : FieldPath}

lemma ne_of_mem_pathFunctions (h : function ∈ pathFunctions ++ predicateFunctions) :
    function ≠ "jsonb_exists" := by
  rintro rfl
  revert h
  decide

lemma address?_path (hfunction : function ∈ pathFunctions ++ predicateFunctions)
    (h : JsonPath.readAddress argument.toList = some (a, [])) :
    (call function argument).address? = some a := by
  rw [address?, if_neg (ne_of_mem_pathFunctions hfunction), h]
  exact if_pos (List.mem_cons_of_mem _ hfunction)

lemma address?_predicate {r : List Char} (hfunction : function ∈ predicateFunctions)
    (h : JsonPath.readAddress argument.toList = some (a, ' ' :: r)) :
    (call function argument).address? = some a := by
  rw [address?, if_neg (ne_of_mem_pathFunctions (List.mem_append_right _ hfunction)), h]
  exact if_pos hfunction

/-- A call with a path along some keys leads to what is behind them. -/
lemma address?_along {keys : List String}
    (hfunction : function ∈ pathFunctions ++ predicateFunctions)
    (hkeys : ∀ k ∈ keys, FieldPath.isSegment k.toList = true) :
    (call function (JsonPath.along keys)).address? = some ⟨keys, none⟩ := by
  have hread := JsonPath.readAddress_along hkeys none JsonPath.ended_nil
  rw [JsonPath.wildcard, String.toList_empty, List.nil_append, List.append_nil] at hread
  exact address?_path hfunction hread

/-- A call with the path of a field leads to the place of the field. -/
lemma address?_ofField (hfunction : function ∈ pathFunctions ++ predicateFunctions)
    (hf : f.WellFormed) : (call function (JsonPath.ofField f)).address? = some f.address := by
  have hread := JsonPath.readAddress_ofField hf JsonPath.ended_nil
  rw [List.append_nil] at hread
  exact address?_path hfunction hread

/-- A call with a predicate about a field leads to the place of the field. -/
lemma address?_ofField_append {predicate : String} (hfunction : function ∈ predicateFunctions)
    (hf : f.WellFormed) (hpredicate : predicate.toList.head? = some ' ') :
    (call function (JsonPath.ofField f ++ predicate)).address? = some f.address := by
  have hended : JsonPath.Ended predicate.toList := by simp [hpredicate, JsonPath.Ended]
  have hread := JsonPath.readAddress_ofField hf hended
  obtain ⟨r, hr⟩ := List.head?_eq_some_iff.1 hpredicate
  rw [← String.toList_append, hr] at hread
  exact address?_predicate hfunction hread

end Access

namespace Sql

/-! ## Reading accesses -/

/-- The keys of the arrows that some signs begin with.  Behind a double arrow there is a text, which
has no keys. -/
def arrowKeys : List Sign → List String
  | .other '-' :: .other '>' :: .other '>' :: .literal k :: _ => [String.ofList k]
  | .other '-' :: .other '>' :: .literal k :: r => String.ofList k :: arrowKeys r
  | _ => []

/-- The function whose argument list the content begins, from the signs in front of the content, the
last one first. -/
def function? : List Sign → Option String
  | .other '.' :: .word _ :: .leftParen :: .word f :: _ => some (String.ofList f)
  | _ => none

/-- The literal that is the next argument behind the content. -/
def argument? : List Sign → Option String
  | .other ',' :: .other ' ' :: .literal s :: _ => some (String.ofList s)
  | _ => none

/-- The access to the content between some signs, where those in front come last one first. -/
def accessAt (before after : List Sign) : Access :=
  match function? before, argument? after with
  | some function, some argument => .call function argument
  | _, _ => .arrows (arrowKeys after)

/-- The name of the column. -/
def content : Sign := .word "content".toList

/-- The accesses in some signs, where those in front of them come last one first. -/
def accessesFrom (before : List Sign) : List Sign → List Access
  | [] => []
  | x :: r =>
    (if x = content then [accessAt before r] else []) ++ accessesFrom (x :: before) r

/-- The accesses to the content in a text, from left to right. -/
def accesses (text : String) : Option (List Access) := (signsOf text).map (accessesFrom [])

/-- The places that a text takes values from, if it is clear for each access which one it is. -/
def addresses (text : String) : Option (List Address) :=
  (accesses text).bind fun as => as.mapM Access.address?

lemma addresses_of_accesses {text : String} {a : Access} {p : Address}
    (h : accesses text = some [a]) (ha : a.address? = some p) : addresses text = some [p] := by
  rw [addresses, h, Option.bind_some, List.mapM_cons, ha]
  rfl

/-! ## Signs without access -/

variable {us vs : List Sign}

/-- The column is not mentioned. -/
def Silent (ls : List Sign) : Prop := content ∉ ls

instance : Decidable (Silent us) := inferInstanceAs (Decidable (content ∉ us))

@[simp] lemma silent_cons {x : Sign} : Silent (x :: us) ↔ x ≠ content ∧ Silent us := by
  simp [Silent, eq_comm]

@[simp] lemma silent_append : Silent (us ++ vs) ↔ Silent us ∧ Silent vs := by
  simp [Silent]

lemma accessesFrom_append_of_silent (before : List Sign) (h : Silent us) (vs : List Sign) :
    accessesFrom before (us ++ vs) = accessesFrom (us.reverse ++ before) vs := by
  induction us generalizing before with
  | nil => rfl
  | cons x us ih =>
    obtain ⟨hx, hus⟩ := silent_cons.1 h
    rw [List.cons_append, accessesFrom, if_neg hx, List.nil_append, ih _ hus, List.reverse_cons,
      List.append_assoc]
    rfl

lemma accessesFrom_silent (before : List Sign) (h : Silent us) : accessesFrom before us = [] := by
  have hnil := accessesFrom_append_of_silent before h []
  rwa [List.append_nil] at hnil

lemma eq_of_mem_wordSign {w v : List Char} (h : .word v ∈ wordSign w) : v = w := by
  unfold wordSign at h
  split at h
  · cases h
  · exact Sign.word.inj (List.mem_singleton.1 h)

lemma ofChar_ne_word (c : Char) (v : List Char) : Sign.ofChar c ≠ .word v := by
  unfold Sign.ofChar
  split_ifs <;> simp

/-- The words of a text are made of its characters. -/
lemma mem_of_mem_word {w v : List Char} {gs : List Glyph} (h : .word v ∈ signsFrom w gs) :
    ∀ c ∈ v, c ∈ w ∨ .code c ∈ gs := by
  intro c hc
  induction gs generalizing w with
  | nil => exact .inl (eq_of_mem_wordSign h ▸ hc)
  | cons g gs ih =>
    -- what stands behind the first glyph begins a word of its own, or goes on with this one
    have htail : .word v ∈ signsFrom [] gs → c ∈ w ∨ .code c ∈ g :: gs := fun h =>
      (ih h).elim (fun hmem => absurd hmem (by simp)) fun hmem =>
        .inr (List.mem_cons_of_mem g hmem)
    cases g with
    | code d =>
      rw [signsFrom] at h
      split at h
      · rcases ih h with hmem | hmem
        · rcases List.mem_append.1 hmem with hmem | hmem
          · exact .inl hmem
          · obtain rfl := List.mem_singleton.1 hmem
            exact .inr List.mem_cons_self
        · exact .inr (List.mem_cons_of_mem _ hmem)
      · rcases List.mem_append.1 h with h | h
        · exact .inl (eq_of_mem_wordSign h ▸ hc)
        · rcases List.mem_cons.1 h with h | h
          · exact absurd h.symm (ofChar_ne_word d v)
          · exact htail h
    | literal s =>
      rw [signsFrom] at h
      rcases List.mem_append.1 h with h | h
      · exact .inl (eq_of_mem_wordSign h ▸ hc)
      · rcases List.mem_cons.1 h with h | h
        · cases h
        · exact htail h

/-- A number does not mention the column. -/
lemma silent_number {x : String} (h : ∀ c ∈ x.toList, Lexeme.isNumberChar c = true) :
    Silent (signs (codeGlyphs x)) := by
  intro hmem
  have hfirst : 'c' ∈ "content".toList := by decide
  rcases mem_of_mem_word hmem 'c' hfirst with hc | hc
  · cases hc
  · obtain ⟨c, hc, heq⟩ := List.mem_map.1 hc
    obtain rfl := Glyph.code.inj heq
    exact absurd (h _ hc) (by decide)

/-! ## Calls and arrows -/

/-- The code in front of the literal of a call. -/
lemma signs_call {function : String} (h : function ∈ Access.functions) :
    signs (codeGlyphs (function ++ "(n.content, ")) =
      [.word function.toList, .leftParen, .word ['n'], .other '.'] ++
        content :: [.other ',', .other ' '] := by
  have hall : ∀ f ∈ Access.functions, f.toList ≠ [] ∧ f.toList.all isWordChar = true := by decide
  obtain ⟨hne, hword⟩ := hall function h
  have hopen : signs (codeGlyphs "(n.content, ") =
      [.leftParen, .word ['n'], .other '.'] ++ content :: [.other ',', .other ' '] := by decide
  -- the parenthesis ends the name of the function
  have hdelimited : Delimited (codeGlyphs "(n.content, ") := by
    intro c r heq
    obtain rfl := Glyph.code.inj (List.cons.inj heq).1
    decide
  rw [codeGlyphs, String.toList_append, List.map_append]
  refine (signs_append_of_delimited _ hdelimited).trans ?_
  rw [hopen, signs_word hne (List.all_eq_true.1 hword)]
  rfl

/-- A call is read as such, if the column is not mentioned behind it. -/
lemma accessesFrom_call {function : String} (h : function ∈ Access.functions) (before : List Sign)
    (argument : String) (hvs : Silent vs) :
    accessesFrom before (signs (codeGlyphs (function ++ "(n.content, ")) ++
      .literal argument.toList :: vs) = [.call function argument] := by
  have hname : .word function.toList ≠ content := by
    have hall : ∀ f ∈ Access.functions, .word f.toList ≠ content := by decide
    exact hall function h
  have hfront : Silent [.word function.toList, .leftParen, .word ['n'], .other '.'] :=
    silent_cons.2 ⟨hname, by decide⟩
  have hbehind : Silent ([.other ',', .other ' '] ++ .literal argument.toList :: vs) :=
    silent_append.2 ⟨by decide, silent_cons.2 ⟨Sign.noConfusion, hvs⟩⟩
  rw [signs_call h, List.append_assoc, accessesFrom_append_of_silent before hfront,
    List.cons_append, accessesFrom, if_pos rfl, accessesFrom_silent _ hbehind]
  simp [accessAt, function?, argument?]

end Sql
end ContentFilter
