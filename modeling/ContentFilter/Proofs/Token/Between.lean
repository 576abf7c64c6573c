import ContentFilter.Proofs.Token.Identifier
/-!
# An operator between two operands

Two operands that are written one behind the other, with an operator between them, keep their tokens
(`Token.ofSource_join`), with gaps around the operator or without them: no operand goes on with a
character that an operator begins with, and no operator with one that an operand begins with.  An
operand is a token or stands in brackets; if it can be folded it is one token then
(`Token.OfOperand.exists_folded`).
-/

namespace ContentFilter

open Text

/-- Two texts with an operator between them, and gaps around the operator. -/
def Operator.join (o : Operator) (left before behind right : String) : String :=
  left ++ before ++ o.symbol ++ behind ++ right

/-! ## Seams at an operator -/

namespace Lexeme

variable {b : Builtins} {word rest text ys : List Char} {k : Kind} {c : Char}

/-- The characters that operators are spelled with. -/
def operatorChars : List Char := ['=', '!', '<', '>', '~', '*', '@']

lemma IsOperator.subset_operatorChars (h : IsOperator word) : ∀ c ∈ word, c ∈ operatorChars := by
  obtain ⟨o, rfl⟩ := h
  have hall : spelled.all fun k =>
      k.group = .operator → k.symbol.toList.all (operatorChars.contains ·) := by decide
  have ho := List.all_eq_true.1 hall _ (mem_spelled (k := .operator o) (by simp [Kind.group]))
  simpa [Kind.group, Kind.symbol] using ho

/-- Gaps, letters, digits, the minus sign and the delimiters of strings are not found in
operators. -/
lemma notMem_operatorChars (h : isGap c = true ∨ isLetter c = true ∨ (c = '-' ∨ c.isDigit = true) ∨
    isQuote c = true) : c ∉ operatorChars := by
  intro hc
  have hall : operatorChars.all fun c =>
      !(isGap c || isLetter c || (c = '-' || c.isDigit) || isQuote c) := by decide +kernel
  have hnot := List.all_eq_true.1 hall c hc
  simp only [Bool.not_eq_true', Bool.or_eq_false_iff, decide_eq_false_iff_not] at hnot
  simp [hnot] at h

/-- A lexeme other than an operator begins with a character that is not found in operators. -/
lemma Begins.head_notMem_operatorChars (h : Begins b word rest k text)
    (hk : k.group ≠ .operator) : ∀ c ∈ word.head?, c ∉ operatorChars := by
  intro c hc
  have hspelled : ∀ {k : Kind}, k ∈ spelled → k.group ≠ .operator →
      c ∈ k.symbol.toList.head? → c ∉ operatorChars := by
    intro k hmem hk hc
    have hall : spelled.all fun k =>
        k.group ≠ .operator → k.symbol.toList.head?.all (!operatorChars.contains ·) := by decide
    have hnot := List.all_eq_true.1 hall k hmem
    rw [Option.mem_def.1 hc] at hnot
    simpa [hk] using hnot
  cases h with
  | delimiter hmem =>
    refine hspelled (mem_spelled ?_) hk hc
    simp only [List.mem_cons, List.not_mem_nil, or_false] at hmem
    rcases hmem with rfl | rfl | rfl | rfl <;> decide
  | connective hmem _ =>
    refine hspelled (mem_spelled ?_) hk hc
    simp only [List.mem_cons, List.not_mem_nil, or_false] at hmem
    rcases hmem with rfl | rfl <;> decide
  | operator _ => exact absurd rfl hk
  | number hw _ =>
    have hhead := hw.head
    rw [Option.mem_def.1 hc] at hhead
    exact notMem_operatorChars (.inr (.inr (.inl (by simpa using hhead))))
  | name hw _ =>
    have hhead := hw.head_isLetter
    rw [Option.mem_def.1 hc] at hhead
    exact notMem_operatorChars (.inr (.inl hhead))
  | string hq _ =>
    obtain rfl := Option.some.inj hc
    exact notMem_operatorChars (.inr (.inr (.inr hq)))

/-- An operator in front of what cannot go on with it. -/
lemma Begins.of_operator (o : Operator) (h : ∀ c ∈ rest.head?, c ∉ operatorChars) :
    Begins b o.symbol.toList rest (.operator o) o.symbol.toList := by
  refine .operator fun w hw hp => ?_
  cases rest with
  | nil => simpa using hp.length_le
  | cons d r =>
    have hd : d ∉ w := fun hd => h d rfl (hw.subset_operatorChars d hd)
    exact (prefix_of_prefix_append hd hp).length_le

/-- The characters of numbers are found in names. -/
lemma inName_of_isNumberChar (h : isNumberChar c = true) : inName c = true := by
  simp only [isNumberChar, Bool.or_eq_true, decide_eq_true_eq] at h
  rcases h with (hdigit | rfl) | rfl
  · have hascii : c.toNat < 0x80 := by
      have hdigit' : '0'.val ≤ c.val ∧ c.val ≤ '9'.val := by simpa [Char.isDigit] using hdigit
      have h9 : '9'.val.toNat = 57 := rfl
      have hle := UInt32.le_iff_toNat_le.1 hdigit'.2
      simp only [Char.toNat]
      omega
    simp [inName, isNameChar, isAlnum, isNumeral, hascii, hdigit]
  · decide
  · decide

/-- No name goes on with an operator. -/
lemma endsName_symbol (o : Operator) (rest : List Char) : EndsName (o.symbol.toList ++ rest) := by
  have hall : spelled.all fun k =>
      k.group = .operator → k.symbol.toList.head?.any (!inName ·) := by decide +kernel
  have ho := List.all_eq_true.1 hall _ (mem_spelled (k := .operator o) (by simp [Kind.group]))
  obtain ⟨c, hc, hnot⟩ := (Option.any_eq_true _ _).1
    (show o.symbol.toList.head?.any (!inName ·) by simpa [Kind.group, Kind.symbol] using ho)
  obtain ⟨r, hr⟩ := List.head?_eq_some_iff.1 hc
  rw [endsName_iff_inName, hr]
  simpa using hnot

/-- A lexeme that is neither an operator nor a connective does not reach over what ends names. -/
lemma Begins.append_of_endsName (h : Begins b word rest k text)
    (hk : k.group ≠ .operator ∧ k.group ≠ .connective) (hys : EndsName ys) :
    Begins b word (rest ++ ys) k text := by
  cases h with
  | delimiter hmem => exact .delimiter hmem
  | connective hmem _ =>
    simp only [List.mem_cons, List.not_mem_nil, or_false] at hmem
    rcases hmem with rfl | rfl <;> exact absurd rfl hk.2
  | operator _ => exact absurd rfl hk.1
  | number hw hlong =>
    refine .number hw ?_
    cases ys with
    | nil => rwa [List.append_nil]
    | cons d ys =>
      refine hlong.append fun w hw hd => ?_
      have hname := inName_of_isNumberChar (hw.forall_isNumberChar d hd)
      rw [endsName_iff_inName.1 hys d rfl] at hname
      cases hname
  | name hw hends =>
    refine .name hw ?_
    cases rest with
    | nil => exact hys
    | cons c r => exact hends
  | string hq hquoted => exact .string hq hquoted

end Lexeme

namespace Token

open Lexeme

variable {b : Builtins} {n : Nat} {xs ys : List Char} {ts us : List Token}

/-- A tiling without operators and connectives can be put in front of one of what ends names. -/
lemma Tiled.append_of_endsName (h : Tiled b n xs ts)
    (hts : ∀ t ∈ ts, t.group ≠ .operator ∧ t.group ≠ .connective) (hys : EndsName ys)
    (h' : Tiled b (n + xs.length) ys us) : Tiled b n (xs ++ ys) (ts ++ us) := by
  induction h with
  | finish => exact h'
  | gap hgap _ ih =>
    refine .gap hgap (ih hts ?_)
    rwa [List.length_cons, Nat.add_comm _ 1, ← Nat.add_assoc] at h'
  | lexeme hbegins _ ih =>
    obtain ⟨ht, hts⟩ := List.forall_mem_cons.1 hts
    rw [List.append_assoc]
    refine .lexeme (hbegins.append_of_endsName ht hys) (ih hts ?_)
    rwa [List.length_append, ← Nat.add_assoc] at h'

/-- What is tiled without an operator in front begins with a character that is not found in
operators. -/
lemma Tiled.head_notMem_operatorChars (h : Tiled b n xs ts)
    (hts : ∀ t ∈ ts.head?, t.group ≠ .operator) : ∀ c ∈ xs.head?, c ∉ operatorChars := by
  cases h with
  | finish => nofun
  | gap hgap _ =>
    intro c hc
    obtain rfl := Option.some.inj hc
    exact notMem_operatorChars (.inl hgap)
  | lexeme hbegins _ =>
    obtain ⟨c, r, rfl, -⟩ := hbegins.exists_cons
    exact hbegins.head_notMem_operatorChars (hts _ rfl)

/-- The token of an operator. -/
def ofOperator (o : Operator) (start : Nat) : Token :=
  plain (.operator o) ⟨start, o.symbol.toList.length⟩ o.symbol

/-- A source of two texts with an operator between them has the tokens of both texts, those of the
second one further on, and the operator between them. -/
theorem ofSource_join {left right before behind : String} (o : Operator)
    (hl : ofSource b left = .ok ts) (hr : ofSource b right = .ok us)
    (hts : ∀ t ∈ ts, t.group ≠ .operator ∧ t.group ≠ .connective)
    (hus : ∀ u ∈ us.head?, u.group ≠ .operator)
    (hgap : ∀ gap ∈ [before, behind], ∀ c ∈ gap.toList, isGap c = true) :
    ∃ start k, ofSource b (o.join left before behind right) =
      .ok (ts ++ ofOperator o start :: us.map (shift k)) := by
  rw [ofSource_eq_ok_iff_tiled] at hl hr
  obtain ⟨hbefore, hbehind⟩ : (∀ c ∈ before.toList, isGap c = true) ∧
      ∀ c ∈ behind.toList, isGap c = true := by simpa using hgap
  let start := left.toList.length + before.toList.length
  let k := start + o.symbol.toList.length + behind.toList.length
  refine ⟨start, k, ofSource_eq_ok_iff_tiled.2 ?_⟩
  have hright : Tiled b (start + o.symbol.toList.length) (behind.toList ++ right.toList)
      (us.map (shift k)) := by
    have hshift := hr.shift k
    rw [Nat.zero_add] at hshift
    exact .gaps hbehind hshift
  have hoperator : Tiled b start (o.symbol.toList ++ (behind.toList ++ right.toList))
      (ofOperator o start :: us.map (shift k)) := by
    have hhead := hright.head_notMem_operatorChars fun u hu => by
      rw [List.head?_map] at hu
      obtain ⟨v, hv, rfl⟩ := Option.map_eq_some_iff.1 hu
      exact hus v hv
    have hlexeme := Tiled.lexeme (.of_operator o hhead) hright
    rwa [String.ofList_toList] at hlexeme
  have hends :
      EndsName (before.toList ++ (o.symbol.toList ++ (behind.toList ++ right.toList))) := by
    by_cases hnil : before.toList = []
    · rw [hnil, List.nil_append]
      exact endsName_symbol o _
    · exact endsName_of_startsGap (startsGap_of_ne_nil hbefore hnil _)
  have hall := hl.append_of_endsName hts hends (.gaps hbefore (by rwa [Nat.zero_add]))
  simpa only [Operator.join, String.toList_append, List.append_assoc] using hall

/-! ## Operands -/

/-- The tokens of an operand: a single one, or operands in brackets. -/
inductive OfOperand : List Token → Prop
  | single {t : Token} : t.group = .operand → OfOperand [t]
  | list {opening closing : Token} {items : List Token} :
      opening.group = .leftBracket → closing.group = .rightBracket →
      (∀ t ∈ items, t.group = .operand) → OfOperand (opening :: (items ++ [closing]))

variable {source : String}

lemma OfOperand.group_ne (h : OfOperand ts) :
    ∀ t ∈ ts, t.group ≠ .operator ∧ t.group ≠ .connective := by
  cases h with
  | single ht => simp [ht]
  | list hl hr hitems =>
    intro t ht
    simp only [List.mem_cons, List.mem_append, List.not_mem_nil, or_false] at ht
    rcases ht with rfl | ht | rfl
    · simp [hl]
    · simp [hitems t ht]
    · simp [hr]

lemma OfOperand.group_of_singleton {t : Token} (h : OfOperand [t]) : t.group = .operand := by
  generalize hts : [t] = ts at h
  cases h with
  | single ht => rwa [List.singleton_inj.1 hts]
  | list => simp at hts

/-- The tokens of an operand are those of an operand further on. -/
lemma OfOperand.shift (h : OfOperand ts) (k : Nat) : OfOperand (ts.map (Token.shift k)) := by
  cases h with
  | single ht => exact .single ht
  | list hl hr hitems =>
    rw [List.map_cons, List.map_append]
    exact .list hl hr (by simpa [Token.shift] using hitems)

/-- Operands that are read into an open list and closed are a list. -/
lemma Folds.exists_list {o : OpenList} {closing : Token}
    (hts : ∀ t ∈ ts, t.group = .operand) (hclosing : closing.group = .rightBracket)
    {rest : List Token} (h : Folds source (some o) (ts ++ closing :: rest) us) :
    ∃ list vs, us = list :: vs ∧ list.kind = .list ∧ list.group = .operand ∧
      Folds source none rest vs := by
  induction ts generalizing o with
  | nil =>
    cases h with
    | closes _ hclose htail =>
      obtain rfl := OpenList.close_eq_ok hclose
      exact ⟨_, _, rfl, rfl, rfl, htail⟩
    | item hpush _ =>
      rw [(OpenList.push_eq_ok hpush).1] at hclosing
      cases hclosing
  | cons t ts ih =>
    obtain ⟨ht, hts⟩ := List.forall_mem_cons.1 hts
    cases h with
    | closes hg _ _ =>
      rw [ht] at hg
      cases hg
    | item _ htail => exact ih hts htail

/-- The token that an operand is folded to: a single token stays, and brackets become a list. -/
def FoldedTo (ts : List Token) (t : Token) : Prop := ts = [t] ∨ ts.length ≠ 1 ∧ t.kind = .list

lemma FoldedTo.eq_singleton {t : Token} (h : FoldedTo ts t) (hk : t.kind ≠ .list) : ts = [t] :=
  h.resolve_right fun hlist => hk hlist.2

lemma FoldedTo.eq_of_singleton {t u : Token} (h : FoldedTo [t] u) : u = t := by
  rcases h with h | h
  · exact (List.singleton_inj.1 h).symm
  · exact absurd rfl h.1

/-- An operand that can be folded, whatever stands behind it, is folded to one token. -/
lemma OfOperand.exists_folded (h : OfOperand ts) {rest : List Token}
    (hfolds : Folds source none (ts ++ rest) us) :
    ∃ t vs, us = t :: vs ∧ FoldedTo ts t ∧ t.group = .operand ∧ Folds source none rest vs := by
  cases h with
  | single ht =>
    cases hfolds with
    | opens hg _ =>
      rw [ht] at hg
      cases hg
    | keep _ _ htail => exact ⟨_, _, rfl, .inl rfl, ht, htail⟩
  | list hl hr hitems =>
    cases hfolds with
    | opens _ hinner =>
      simp only [List.append_eq, List.append_assoc, List.singleton_append] at hinner
      obtain ⟨list, vs, rfl, hk, hg, htail⟩ := Folds.exists_list hitems hr hinner
      exact ⟨list, vs, rfl, .inr ⟨by simp, hk⟩, hg, htail⟩
    | keep hg _ _ => exact absurd hl hg

end Token
end ContentFilter
