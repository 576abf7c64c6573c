import ContentFilter.Proofs.Token.Source
import ContentFilter.Proofs.Token.Tiling
/-!
# Tokens at another place

What the tokens of a text are when the text stands inside a longer source.  A tiling can be moved,
and it can be put in front of another one where no lexeme reaches over the seam: no lexeme but a
string goes on with a parenthesis that closes or with a connective, and a string is closed already
(`Token.Tiled.append`).  The folding of the brackets does not depend on the place either
(`Token.Folds.shift`), as a list stands for the same characters there.
-/

namespace ContentFilter

open Text

/-- The stretch some characters further on. -/
def Span.shift (k : Nat) (s : Span) : Span := ⟨s.start + k, s.len⟩

/-! ## Seams -/

namespace Lexeme

variable {b : Builtins} {word rest text ys : List Char} {k : Kind} {d : Char}

/-- The characters that may follow any text without a change to its lexemes, unless the text ends
with a connective. -/
def isSeam (d : Char) : Bool := d = ')' || d = '&' || d = '|'

lemma isSeam_iff : isSeam d = true ↔ d = ')' ∨ d = '&' ∨ d = '|' := by
  simp [isSeam, or_assoc]

/-- What does not contain the character at a seam ends before it. -/
lemma prefix_of_prefix_append {v xs : List Char} (hd : d ∉ v) (h : v <+: xs ++ d :: ys) :
    v <+: xs := by
  obtain ⟨t, ht⟩ := h
  rcases List.append_eq_append_iff.1 ht with ⟨a, rfl, -⟩ | ⟨e, rfl, he⟩
  · exact List.prefix_append v a
  · cases e with
    | nil => simp
    | cons x e =>
      obtain rfl := (List.cons.inj he).1
      simp at hd

lemma Longest.append {form : List Char → Prop} (hform : ∀ w, form w → d ∉ w)
    (h : Longest form word rest) : Longest form word (rest ++ d :: ys) := by
  intro w hw hp
  rw [← List.append_assoc] at hp
  exact h w hw (prefix_of_prefix_append (hform w hw) hp)

lemma not_mem_symbol (hd : isSeam d = true) (w : List Char) (hw : IsOperator w) : d ∉ w := by
  obtain ⟨o, rfl⟩ := hw
  have hmem : Kind.operator o ∈ spelled := mem_spelled (by simp [Kind.group])
  have hall : spelled.all fun k => k.group = .operator →
      ')' ∉ k.symbol.toList ∧ '&' ∉ k.symbol.toList ∧ '|' ∉ k.symbol.toList := by decide
  have ho := List.all_eq_true.1 hall _ hmem
  simp only [Kind.group, Kind.symbol, forall_const, decide_eq_true_eq] at ho
  rcases isSeam_iff.1 hd with rfl | rfl | rfl
  · exact ho.1
  · exact ho.2.1
  · exact ho.2.2

lemma Number.forall_isNumberChar {w : List Char} (h : Number w) :
    ∀ x ∈ w, isNumberChar x = true := by
  have hdigits : ∀ {ds : List Char}, Digits ds → ∀ x ∈ ds, isNumberChar x = true := by
    intro ds hds x hx
    simp [isNumberChar, hds.2 x hx]
  have hunsigned : ∀ {v : List Char}, Unsigned v → ∀ x ∈ v, isNumberChar x = true := by
    rintro v (⟨hd⟩ | ⟨hd, he⟩) x hx
    · exact hdigits hd x hx
    · rcases List.mem_append.1 hx with hx | hx
      · exact hdigits hd x hx
      · rcases List.mem_cons.1 hx with rfl | hx
        · decide
        · exact hdigits he x hx
  intro x hx
  cases h with
  | positive hv => exact hunsigned hv x hx
  | negative hv =>
    rcases List.mem_cons.1 hx with rfl | hx
    · decide
    · exact hunsigned hv x hx

lemma not_mem_number (hd : isSeam d = true) (w : List Char) (hw : Number w) : d ∉ w := by
  intro hmem
  have hchar := hw.forall_isNumberChar d hmem
  rcases isSeam_iff.1 hd with rfl | rfl | rfl <;> revert hchar <;> decide

lemma EndsName.append (hd : isSeam d = true) (h : EndsName rest) :
    EndsName (rest ++ d :: ys) := by
  cases rest with
  | nil =>
    intro c hc
    obtain rfl := Option.some.inj hc
    rcases isSeam_iff.1 hd with rfl | rfl | rfl <;> decide
  | cons c r => exact h

/-- A lexeme does not reach over a seam. -/
lemma Begins.append (hd : isSeam d = true) (hk : rest = [] → k.group ≠ .connective)
    (h : Begins b word rest k text) : Begins b word (rest ++ d :: ys) k text := by
  cases h with
  | delimiter hmem => exact .delimiter hmem
  | connective hmem hdouble =>
    refine .connective hmem ?_
    cases rest with
    | nil =>
      simp only [List.mem_cons, List.not_mem_nil, or_false] at hmem
      exact absurd (by rcases hmem with rfl | rfl <;> rfl) (hk rfl)
    | cons c r => exact hdouble
  | operator hlong => exact .operator (hlong.append (not_mem_symbol hd))
  | number hw hlong => exact .number hw (hlong.append (not_mem_number hd))
  | name hw hends => exact .name hw (hends.append hd)
  | string hq hquoted => exact .string hq hquoted

/-- What begins with a connective has it as its first lexeme. -/
lemma Begins.kind_of_head {j : Kind} (hj : j ∈ [Kind.and, .or])
    (hd : some d = j.symbol.toList.head?) (h : Begins b word rest k text)
    (hsplit : d :: ys = word ++ rest) : k = j := by
  have hspelled : ∀ {k : Kind}, k.group ≠ .operand → d :: ys = k.symbol.toList ++ rest →
      k = j := by
    intro k hk hsplit
    obtain ⟨c, s, hs, -⟩ := head_symbol (mem_spelled hk)
    rw [hs, List.cons_append] at hsplit
    obtain ⟨rfl, -⟩ := List.cons.inj hsplit
    exact (eq_of_head_symbol hj (mem_spelled hk) hs hd).1
  have hother : isQuote d = false ∧ (d = '-' || d.isDigit) = false ∧ isLetter d = false := by
    simp only [List.mem_cons, List.not_mem_nil, or_false] at hj
    rcases hj with rfl | rfl <;> obtain rfl := Option.some.inj hd <;> decide
  cases h with
  | delimiter hmem =>
    refine hspelled ?_ hsplit
    simp only [List.mem_cons, List.not_mem_nil, or_false] at hmem
    rcases hmem with rfl | rfl | rfl | rfl <;> decide
  | connective hmem _ =>
    refine hspelled ?_ hsplit
    simp only [List.mem_cons, List.not_mem_nil, or_false] at hmem
    rcases hmem with rfl | rfl <;> decide
  | operator _ => exact hspelled (by simp [Kind.group]) hsplit
  | number hw _ =>
    have hhead := hw.head
    cases word with
    | nil => simp at hhead
    | cons c s =>
      obtain ⟨rfl, -⟩ := List.cons.inj hsplit
      rw [List.head?_cons, Option.any_some, hother.2.1] at hhead
      cases hhead
  | name hw _ =>
    obtain @⟨c, s, hletter, -⟩ := hw
    obtain ⟨rfl, -⟩ := List.cons.inj hsplit
    rw [hother.2.2] at hletter
    cases hletter
  | string hq _ =>
    obtain ⟨rfl, -⟩ := List.cons.inj hsplit
    rw [hother.1] at hq
    cases hq

end Lexeme

namespace Token

variable {b : Builtins} {n k : Nat} {xs ys cs : List Char} {d : Char} {ts us : List Token}

/-- The token without its elements, some characters further on. -/
def move (k : Nat) (t : Token) : Token := { t with span := t.span.shift k }

/-- The token with its elements, some characters further on. -/
def shift (k : Nat) (t : Token) : Token :=
  { t with
    span := t.span.shift k
    items := t.items.map (move k) }

/-- A tiling can be moved. -/
lemma Tiled.shift (h : Tiled b n cs ts) (k : Nat) :
    Tiled b (n + k) cs (ts.map (Token.shift k)) := by
  induction h with
  | finish n => exact .finish _
  | gap hgap _ ih =>
    rw [Nat.add_right_comm] at ih
    exact .gap hgap ih
  | lexeme hbegins _ ih =>
    rw [Nat.add_right_comm] at ih
    exact .lexeme hbegins ih

lemma mem_getLast?_cons {t u : Token} (h : t ∈ ts.getLast?) : t ∈ (u :: ts).getLast? := by
  rw [List.getLast?_cons, Option.mem_def.1 h]
  rfl

lemma eq_or_mem_getLast? {t u : Token} (h : t ∈ (u :: ts).getLast?) :
    t = u ∨ t ∈ ts.getLast? := by
  cases ts with
  | nil => exact .inl (Option.some.inj h).symm
  | cons v ts => exact .inr (by rwa [List.getLast?_cons_cons] at h)

lemma forall_getLast?_shift (h : ∀ t ∈ ts.getLast?, t.group ≠ .connective) :
    ∀ t ∈ (ts.map (Token.shift k)).getLast?, t.group ≠ .connective := by
  intro t ht
  rw [List.getLast?_map] at ht
  obtain ⟨u, hu, rfl⟩ := Option.map_eq_some_iff.1 ht
  exact h u hu

/-- A tiling with a delimiter or a connective of one character in front. -/
lemma Tiled.mark {j : Kind} (hsymbol : j.symbol.toList = [d])
    (hbegins : Lexeme.Begins b j.symbol.toList xs j j.symbol.toList)
    (h : Tiled b (n + 1) xs ts) : Tiled b n (d :: xs) (plain j ⟨n, 1⟩ j.symbol :: ts) := by
  have htail : Tiled b (n + j.symbol.toList.length) xs ts := by rwa [hsymbol]
  have hlexeme := Tiled.lexeme hbegins htail
  rwa [String.ofList_toList, hsymbol] at hlexeme

/-- A tiling can be put in front of another one. -/
lemma Tiled.append (hd : Lexeme.isSeam d = true) (h : Tiled b n xs ts)
    (hlast : ∀ t ∈ ts.getLast?, t.group ≠ .connective)
    (h' : Tiled b (n + xs.length) (d :: ys) us) : Tiled b n (xs ++ d :: ys) (ts ++ us) := by
  induction h with
  | finish => exact h'
  | gap hgap _ ih =>
    refine .gap hgap (ih hlast ?_)
    rwa [List.length_cons, Nat.add_comm _ 1, ← Nat.add_assoc] at h'
  | @lexeme n word rest text k ts hbegins htiled ih =>
    rw [List.append_assoc, List.cons_append]
    refine .lexeme (hbegins.append hd ?_) (ih ?_ ?_)
    · rintro rfl
      obtain rfl := htiled.unique (.finish _)
      exact hlast _ rfl
    · intro t ht
      exact hlast t (mem_getLast?_cons ht)
    · rwa [List.length_append, ← Nat.add_assoc] at h'

/-- A text that begins with a connective has it as its first token. -/
lemma Tiled.head_connective {j : Kind} (hj : j ∈ [Kind.and, .or])
    (hd : some d = j.symbol.toList.head?) (h : Tiled b n (d :: ys) ts) :
    ∃ t ∈ ts.head?, t.group = .connective := by
  have hfacts : isGap d = false ∧ j.group = .connective := by
    simp only [List.mem_cons, List.not_mem_nil, or_false] at hj
    rcases hj with rfl | rfl <;> obtain rfl := Option.some.inj hd <;> decide
  generalize hcs : d :: ys = cs at h
  cases h with
  | finish => simp at hcs
  | gap hgap _ =>
    obtain ⟨rfl, -⟩ := List.cons.inj hcs
    rw [hfacts.1] at hgap
    cases hgap
  | lexeme hbegins _ =>
    refine ⟨_, rfl, ?_⟩
    rw [plain, hbegins.kind_of_head hj hd hcs]
    exact hfacts.2

/-! ## Folding -/

/-- A sequence is folded exactly if it follows the rules of folding. -/
lemma foldFrom_eq_ok_iff {source : String} {o : Option OpenList} :
    foldFrom source o ts = .ok us ↔ Folds source o ts us := by
  refine ⟨folds_of_foldFrom, fun h => ?_⟩
  induction h with
  | done => rfl
  | opens hg _ ih => simpa only [foldFrom, hg] using ih
  | closes hg hclose _ ih =>
    simp only [foldFrom, hg, hclose, ih]
    rfl
  | item hpush _ ih =>
    simp only [foldFrom, (OpenList.push_eq_ok hpush).1, hpush]
    exact ih
  | @keep t _ _ hl hr _ ih =>
    cases hg : t.group with
    | leftBracket => exact absurd hg hl
    | rightBracket => exact absurd hg hr
    | _ =>
      simp only [foldFrom, hg, ih]
      rfl

/-- Two foldings of whole token sequences, one behind the other. -/
lemma Folds.append {source : String} {o : Option OpenList} {ts' us' : List Token}
    (h : Folds source o ts us) (h' : Folds source none ts' us') :
    Folds source o (ts ++ ts') (us ++ us') := by
  induction h with
  | done => exact h'
  | opens hg _ ih => exact .opens hg ih
  | closes hg hclose _ ih => exact .closes hg hclose ih
  | item hpush _ ih => exact .item hpush ih
  | keep hl hr _ ih => exact .keep hl hr ih

/-- A connective in front of a sequence stays there. -/
lemma Folds.head_connective {source : String} {t : Token} (h : Folds source none ts us)
    (ht : t ∈ ts.head?) (hg : t.group = .connective) : t ∈ us.head? := by
  cases h with
  | done => exact ht
  | opens hl _ =>
    obtain rfl := Option.some.inj ht
    rw [hg] at hl
    cases hl
  | keep _ _ _ => exact ht

/-- A connective at the end of a sequence stays there. -/
lemma Folds.getLast_connective {source : String} {o : Option OpenList} {t : Token}
    (h : Folds source o ts us) (ht : t ∈ ts.getLast?) (hg : t.group = .connective) :
    t ∈ us.getLast? := by
  induction h with
  | done => exact ht
  | opens hl _ ih =>
    rcases eq_or_mem_getLast? ht with rfl | ht
    · rw [hg] at hl
      cases hl
    · exact ih ht
  | closes hr _ _ ih =>
    rcases eq_or_mem_getLast? ht with rfl | ht
    · rw [hg] at hr
      cases hr
    · exact mem_getLast?_cons (ih ht)
  | item hpush _ ih =>
    rcases eq_or_mem_getLast? ht with rfl | ht
    · have hoperand := (OpenList.push_eq_ok hpush).1
      rw [hg] at hoperand
      cases hoperand
    · exact ih ht
  | @keep u ts us _ _ hfolds ih =>
    rcases eq_or_mem_getLast? ht with rfl | ht'
    · cases ts with
      | nil =>
        cases hfolds
        rfl
      | cons v ts =>
        rw [List.getLast?_cons_cons] at ht
        exact mem_getLast?_cons (ih ht)
    · exact mem_getLast?_cons (ih ht')

/-- A token as it is scanned, within the source. -/
structure Scanned (source : String) (t : Token) : Prop where
  /-- The token has no elements. -/
  items_eq_nil : t.items = []
  /-- The token does not end behind the source. -/
  stop_le : t.span.stop ≤ source.toList.length

/-- The open list some characters further on. -/
def OpenList.shift (k : Nat) (o : OpenList) : OpenList := ⟨o.bracket.shift k, o.read.map (move k)⟩

/-- A stretch has the same characters at another place of a longer source. -/
lemma slice_shift (before source behind : String) (span : Span)
    (h : span.len = 0 ∨ span.stop ≤ source.toList.length) :
    slice (before ++ source ++ behind) (span.shift before.toList.length) = slice source span := by
  rcases h with h | h
  · simp [slice, Span.shift, h]
  · have hstart : span.start ≤ source.toList.length := Nat.le_of_add_right_le h
    have hlen : span.len ≤ (source.toList.drop span.start).length := by
      simp only [Span.stop] at h
      rw [List.length_drop]
      omega
    simp only [slice, Span.shift, String.toList_append, List.append_assoc]
    rw [Nat.add_comm, List.drop_length_add_append, List.drop_append_of_le_length hstart,
      List.take_append_of_le_length hlen]

/-- A list that is closed is closed at another place of a longer source. -/
lemma OpenList.close_shift {before source behind : String} {o : OpenList} {t list : Token}
    (ht : t.span.stop ≤ source.toList.length) (h : o.close source t = .ok list) :
    (o.shift before.toList.length).close (before ++ source ++ behind)
      (t.shift before.toList.length) = .ok (list.shift before.toList.length) := by
  have hspan : (o.bracket.span.shift before.toList.length).upTo
      (t.span.shift before.toList.length) =
      (o.bracket.span.upTo t.span).shift before.toList.length := by
    simp only [Span.upTo, Span.shift, Span.stop, Span.mk.injEq, true_and]
    omega
  have hslice := slice_shift before source behind (o.bracket.span.upTo t.span)
    (by simp only [Span.upTo, Span.stop] at ht ⊢; omega)
  unfold close at h ⊢
  simp only [OpenList.shift, Token.shift, hspan, hslice, List.isEmpty_map] at h ⊢
  split at h
  · simp at h
  · next hread =>
    obtain rfl := Except.ok.inj h
    rw [if_neg hread]
    simp [ofItems]

lemma Tiled.items_eq_nil (h : Tiled b n cs ts) : ∀ t ∈ ts, t.items = [] := by
  induction h with
  | finish => simp
  | gap _ _ ih => exact ih
  | lexeme _ _ ih => exact List.forall_mem_cons.2 ⟨rfl, ih⟩

lemma Tiled.scanned {source : String} (h : Tiled b 0 source.toList ts) :
    ∀ t ∈ ts, Scanned source t := by
  intro t ht
  have hinside := (h.tiles.inside t ht).2
  exact ⟨h.items_eq_nil t ht, by omega⟩

lemma Scanned.shift {source : String} {t : Token} (h : Scanned source t) (k : Nat) :
    t.shift k = t.move k := by
  simp [Token.shift, move, h.items_eq_nil]

/-- Folding gives the same tokens at another place of a longer source. -/
lemma Folds.shift {source : String} {o : Option OpenList} (h : Folds source o ts us)
    (hts : ∀ t ∈ ts, Scanned source t) (before behind : String) :
    Folds (before ++ source ++ behind) (o.map (OpenList.shift before.toList.length))
      (ts.map (Token.shift before.toList.length)) (us.map (Token.shift before.toList.length)) := by
  induction h with
  | done => exact .done
  | opens hg _ ih => exact .opens hg (ih fun t ht => hts t (List.mem_cons_of_mem _ ht))
  | closes hg hclose _ ih =>
    have htail := ih fun t ht => hts t (List.mem_cons_of_mem _ ht)
    exact .closes hg (OpenList.close_shift (hts _ List.mem_cons_self).stop_le hclose) htail
  | @item o o' t _ _ hpush _ ih =>
    have htail := ih fun t ht => hts t (List.mem_cons_of_mem _ ht)
    obtain ⟨hoperand, hscalar, rfl⟩ := OpenList.push_eq_ok hpush
    have hpush' : (o.shift before.toList.length).push (t.shift before.toList.length) =
        .ok (OpenList.shift before.toList.length ⟨o.bracket, t :: o.read⟩) := by
      rw [(hts t List.mem_cons_self).shift]
      simp [OpenList.push, move, hoperand, hscalar, OpenList.shift]
    exact .item hpush' htail
  | keep hl hr _ ih =>
    exact .keep hl hr (ih fun t ht => hts t (List.mem_cons_of_mem _ ht))

lemma move_zero (t : Token) : t.move 0 = t := by
  cases t
  rfl

lemma shift_zero (t : Token) : t.shift 0 = t := by
  have hmove : move 0 = id := funext move_zero
  cases t
  simp [Token.shift, Span.shift, hmove]

/-- Folding does not look behind the tokens. -/
lemma Folds.extend {source : String} (h : Folds source none ts us)
    (hts : ∀ t ∈ ts, Scanned source t) (behind : String) :
    Folds (source ++ behind) none ts us := by
  have hshift : Token.shift "".toList.length = id := funext shift_zero
  simpa only [hshift, List.map_id, String.empty_append, Option.map_none] using
    h.shift hts "" behind

end Token
end ContentFilter
