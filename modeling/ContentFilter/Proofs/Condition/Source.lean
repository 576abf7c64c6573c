import ContentFilter.Proofs.Condition.Reading
import ContentFilter.Proofs.Condition.Signs
import ContentFilter.Proofs.Token.Source
/-!
# Where the free code of a condition comes from

The constructors of conditions let two kinds of texts become code: the columns of the builtins,
and the lexemes of numbers (`Condition.Reads.isCode`).  A number is written with digits, a
minus sign and a point, so it is contained, and only the columns need to be trusted.
-/

namespace ContentFilter

namespace Sql

lemma walk_wordSign_digits {w : List Char} (hw : ∀ c ∈ w, c.isDigit = true) :
    walk isConnective 0 (wordSign w) = some 0 := by
  cases w with
  | nil => rfl
  | cons c w => simp [wordSign, walk, isConnective_eq_false List.mem_cons_self (hw c (by simp))]

lemma walk_signsFrom_number {w cs : List Char} (hw : ∀ c ∈ w, c.isDigit = true)
    (hcs : ∀ c ∈ cs, Lexeme.isNumberChar c = true) :
    walk isConnective 0 (signsFrom w (cs.map .code)) = some 0 := by
  -- the word read so far has digits only, and so it is no connective
  induction cs generalizing w with
  | nil => exact walk_wordSign_digits hw
  | cons c cs ih =>
    have hc := hcs c List.mem_cons_self
    have htail : ∀ x ∈ cs, Lexeme.isNumberChar x = true :=
      fun x hx => hcs x (List.mem_cons_of_mem c hx)
    by_cases hd : c.isDigit = true
    · have hword : isWordChar c = true := by simp [isWordChar, Char.isAlphanum, hd]
      rw [List.map_cons, signsFrom, if_pos hword]
      refine ih (fun x hx => ?_) htail
      rcases List.mem_append.1 hx with hx | hx
      · exact hw x hx
      · rwa [List.mem_singleton.1 hx]
    · -- a sign or a point ends the word before it
      have hother : walk isConnective 0 (signsFrom [] (cs.map .code)) = some 0 :=
        ih (by simp) htail
      have hcases : c = '-' ∨ c = '.' := by simpa [Lexeme.isNumberChar, hd] using hc
      rcases hcases with rfl | rfl
      all_goals
        rw [List.map_cons, signsFrom, if_neg (by decide), walk_append, walk_wordSign_digits hw]
        exact hother

/-- A number is self-contained. -/
lemma selfContained_number {x : String} (h : ∀ c ∈ x.toList, Lexeme.isNumberChar c = true) :
    SelfContained x :=
  ⟨fun hq => absurd (h _ hq) (by decide), contained_iff.2 (walk_signsFrom_number (by simp) h)⟩

end Sql

/-- The text is a column, or a number among the tokens. -/
def IsCode (b : Builtins) (ts : List Token) (x : String) : Prop :=
  (∃ name, b.column? name = some x) ∨ ∃ t ∈ ts, t.kind = .number ∧ t.lexeme = x

variable {b : Builtins} {t left operator right : Token} {ts : List Token} {x : String}

lemma Location.Reads.isCode {l : Location} (h : l.Reads b t) (hx : x ∈ l.codes) :
    IsCode b ts x := by
  cases h with
  | field hk hf => simp [codes] at hx
  | column hk hc =>
    obtain rfl := by simpa [codes] using hx
    exact .inl ⟨_, hc⟩

lemma Subject.Reads.isCode {l : Subject} (h : l.Reads b t) (hx : x ∈ l.codes) (ht : t ∈ ts) :
    IsCode b ts x := by
  cases h with
  | number hk =>
    obtain rfl := by simpa [codes] using hx
    exact .inr ⟨t, ht, hk, rfl⟩
  | boolean hk => simp [codes] at hx
  | location hl => exact hl.isCode hx

lemma Operand.Reads.isCode {v : Operand} (h : v.Reads b t) (hx : x ∈ v.codes) (ht : t ∈ ts) :
    IsCode b ts x := by
  cases h with
  | location hl => exact hl.isCode hx
  | number hk =>
    obtain rfl := by simpa [codes] using hx
    exact .inr ⟨t, ht, hk, rfl⟩
  | string hk => simp [codes] at hx
  | boolean hk => simp [codes] at hx
  | now hk => simp [codes] at hx
  | list hk hitems => simp [codes] at hx

namespace Condition

variable {c : Condition}

/-- The free code of a condition comes from columns, and from numbers among its tokens. -/
theorem Reads.isCode (h : c.Reads b left operator right) (hx : x ∈ c.codes) :
    IsCode b [left, operator, right] x := by
  cases h with
  | nullity negated hnull hl hwildcard hk => exact hl.isCode hx
  | comparison hl hr hk hv hright hleft hnow =>
    rcases List.mem_append.1 hx with hx | hx
    · exact hl.isCode hx (by simp)
    · exact hr.isCode hx (by simp)
  | pathLeft hleft hvalue hreads hk hv hlocale => exact hreads.isCode hx (by simp)
  | pathRight hright hvalue hreads hk hv hlocale => exact hreads.isCode hx (by simp)

lemma codes_of_ofLone (h : ofLone t = .ok c) : c.codes = [] := by
  obtain ⟨f, -, -, rfl⟩ := ofLone_eq_ok_iff.1 h
  rfl

end Condition
end ContentFilter
