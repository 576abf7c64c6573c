import ContentFilter.Proofs.Token.Source
import ContentFilter.Proofs.Token.Tiling
/-!
# The builtins that a source depends on

Builtins are consulted for names only, and only for those that are not reserved: the constants, the
word `now`, and the names of the path and of the full text index with all that begins with them and
a dot.  So two tables of builtins that agree on the words of a source that are not reserved give it
the same tokens or the same fault (`Scanner.tokens_congr`), and a name among the tokens stands for
the same column in both.
-/

namespace ContentFilter

open Text

namespace Builtins

/-- The names that are never looked up. -/
def isReserved (name : String) : Bool :=
  ["true", "false", "null", "now", "path", "fulltext"].contains name ||
    "path.".toList.isPrefixOf name.toList || "fulltext.".toList.isPrefixOf name.toList

/-- The tables agree on the words of a text that are not reserved. -/
def AgreeIn (text : List Char) (b b' : Builtins) : Prop :=
  ∀ word : String, word.toList <:+: text → isReserved word = false →
    b.column? word = b'.column? word

variable {b b' : Builtins} {text text' : List Char}

lemma AgreeIn.mono (h : AgreeIn text b b') (htext : text' <:+: text) : AgreeIn text' b b' :=
  fun word hword => h word (hword.trans htext)

/-- A name that is reserved or does not occur makes no difference to the words of a text. -/
lemma agreeIn_insert {name : String} (h : isReserved name = true ∨ ¬name.toList <:+: text)
    (b : Builtins) (column : String) : AgreeIn text (b.insert name column) b := by
  intro word hword hfree
  rw [column?, column?, Table.find?_insert, if_neg]
  rintro rfl
  rcases h with h | h
  · rw [hfree] at h
    cases h
  · exact h hword

end Builtins

open Builtins

/-! ## Classes of names -/

namespace Lexeme

variable {b b' : Builtins} {name text : List Char}

lemma isReserved_ofList (name : List Char) :
    isReserved (String.ofList name) = true ↔
      (name = "true".toList ∨ name = "false".toList) ∨ name = "null".toList ∨
        name = "now".toList ∨ hasFirstSegment "path" name = true ∨
          hasFirstSegment "fulltext" name = true := by
  have hword : ∀ s : String, String.ofList name = s ↔ name = s.toList := fun s =>
    ⟨fun h => by rw [← h, String.toList_ofList], fun h => by rw [h, String.ofList_toList]⟩
  have hdot : "path.".toList = "path".toList ++ ['.'] ∧
      "fulltext.".toList = "fulltext".toList ++ ['.'] := by decide
  simp only [isReserved, hasFirstSegment, List.contains_cons, List.contains_nil, Bool.or_false,
    Bool.or_eq_true, beq_iff_eq, hword, String.toList_ofList, hdot.1, hdot.2, decide_eq_true_eq]
  grind

/-- The kind of a reserved name does not depend on the builtins. -/
lemma classify_of_reserved (h : isReserved (String.ofList name) = true) (b b' : Builtins) :
    classify b name = classify b' name := by
  unfold classify
  rw [isReserved_ofList] at h
  split_ifs <;> simp_all

/-- A name that is not reserved is a builtin if it has a column, and else a field. -/
lemma classify_of_not_reserved (h : isReserved (String.ofList name) = false) (b : Builtins) :
    classify b name = if b.contains (String.ofList name) then .builtin else .field := by
  rw [← Bool.not_eq_true, isReserved_ofList] at h
  simp only [not_or] at h
  obtain ⟨⟨htrue, hfalse⟩, hnull, hnow, hpath, hfulltext⟩ := h
  simp only [classify, htrue, hfalse, hnull, hnow, hpath, hfulltext, or_self, if_false,
    Bool.false_eq_true]

lemma not_reserved_of_classify (h : classify b name = .builtin) :
    isReserved (String.ofList name) = false := by
  by_contra hr
  rw [Bool.not_eq_false] at hr
  -- without any builtins no name is one
  rw [classify_of_reserved hr b .empty] at h
  unfold classify at h
  split_ifs at h with _ _ _ _ _ hcontains
  cases hcontains

lemma classify_congr (h : AgreeIn text b b') (hname : name <:+: text) :
    classify b name = classify b' name := by
  cases hr : isReserved (String.ofList name) with
  | true => exact classify_of_reserved hr b b'
  | false =>
    have hcolumn := h (String.ofList name) (by rwa [String.toList_ofList]) hr
    rw [classify_of_not_reserved hr, classify_of_not_reserved hr, contains_eq_isSome,
      contains_eq_isSome, hcolumn]

/-- What is of one of the kinds of names is a name. -/
lemma Begins.of_name {word rest : List Char} {k : Kind} (h : Begins b word rest k text)
    (hk : k ∈ nameKinds) : Name word ∧ text = word ∧ k = classify b word := by
  cases h with
  | delimiter hmem =>
    simp only [List.mem_cons, List.not_mem_nil, or_false] at hmem
    rcases hmem with rfl | rfl | rfl | rfl <;> exact absurd hk (by decide)
  | connective hmem _ =>
    simp only [List.mem_cons, List.not_mem_nil, or_false] at hmem
    rcases hmem with rfl | rfl <;> exact absurd hk (by decide)
  | operator _ => simp [nameKinds] at hk
  | number _ _ => exact absurd hk (by decide)
  | name hname _ => exact ⟨hname, rfl, rfl⟩
  | string _ _ => exact absurd hk (by decide)

/-- A lexeme is read in the same way, or is at fault in the same way. -/
lemma read_congr {c : Char} {r : List Char} (h : AgreeIn (c :: r) b b') :
    read b c r = read b' c r := by
  have hname : readName b (c :: r) = readName b' (c :: r) := by
    unfold readName
    congr 1
    funext n
    rw [classify_congr h (List.take_prefix n _).isInfix]
  unfold read
  rw [hname]

end Lexeme

/-! ## Tokens -/

variable {b b' : Builtins} {cs : List Char} {n : Nat}

/-- Builtins that agree on the words of a text give it the same tokens or the same fault. -/
theorem Scanner.tokens_congr (h : AgreeIn cs b b') :
    (⟨n, cs⟩ : Scanner).tokens b = (⟨n, cs⟩ : Scanner).tokens b' := by
  induction hlen : cs.length using Nat.strongRecOn generalizing n cs with
  | ind m ih =>
    cases cs with
    | nil => rw [tokens_nil, tokens_nil]
    | cons c r =>
      cases hgap : isGap c with
      | true =>
        rw [tokens_gap hgap, tokens_gap hgap]
        exact ih r.length (by simp [← hlen]) (h.mono (List.suffix_cons c r).isInfix) rfl
      | false =>
        rw [tokens_lexeme hgap, tokens_lexeme hgap, Lexeme.read_congr h]
        cases hread : Lexeme.read b' c r with
        | error e => rfl
        | ok l =>
          have hpos := Lexeme.read_len_pos hread
          have hshort : ((c :: r).drop l.len).length < m := by
            rw [List.length_drop, ← hlen]
            simp only [List.length_cons]
            omega
          dsimp only
          rw [ih _ hshort (h.mono (List.drop_suffix _ _).isInfix) rfl]

namespace Token

lemma ofSource_congr {source : String} (h : AgreeIn source.toList b b') :
    ofSource b source = ofSource b' source := Scanner.tokens_congr h

/-- A name among the tokens is a word of the source. -/
lemma Tiled.infix_of_name {ts : List Token} (h : Tiled b n cs ts) {t : Token} (ht : t ∈ ts)
    (hk : t.kind ∈ Lexeme.nameKinds) :
    t.lexeme.toList <:+: cs ∧ t.kind = Lexeme.classify b t.lexeme.toList := by
  induction h with
  | finish => simp at ht
  | gap _ _ ih => exact ⟨(ih ht).1.trans (List.suffix_cons _ _).isInfix, (ih ht).2⟩
  | lexeme hbegins _ ih =>
    rcases List.mem_cons.1 ht with rfl | ht
    · obtain ⟨-, rfl, hclass⟩ := hbegins.of_name hk
      rw [plain, String.toList_ofList]
      exact ⟨(List.prefix_append _ _).isInfix, hclass⟩
    · exact ⟨(ih ht).1.trans (List.suffix_append _ _).isInfix, (ih ht).2⟩

/-- A name is in the class of names that it belongs to. -/
lemma IsLexeme.kind_eq_classify {t : Token} (h : IsLexeme b t) (hk : t.kind ∈ Lexeme.nameKinds) :
    t.kind = Lexeme.classify b t.lexeme.toList := by
  obtain ⟨c, r, l, position, hread, rfl⟩ := h
  obtain ⟨word, rest, -, -, hbegins⟩ := Lexeme.begins_of_read hread
  obtain ⟨-, htext, hclass⟩ := hbegins.of_name hk
  rw [Scanner.tokenAt, plain, String.toList_ofList, htext]
  exact hclass

/-- A builtin among the tokens has the same column on both sides. -/
lemma Tiled.column_eq {ts : List Token} (h : Tiled b n cs ts) (hagree : AgreeIn cs b b')
    {t : Token} (ht : t ∈ ts) (hk : t.kind = .builtin) :
    b.column? t.lexeme = b'.column? t.lexeme := by
  obtain ⟨hword, hclass⟩ := h.infix_of_name ht (by rw [hk]; decide)
  refine hagree _ hword ?_
  simpa using Lexeme.not_reserved_of_classify (hclass.symm.trans hk)

end Token
end ContentFilter
