import ContentFilter.Proofs.Token.Tiling
/-!
# Where a source cannot be cut into tokens

A reading that fails blames a stretch of the characters that it had before it: at least one
character, and none behind the last one (`Lexeme.within_of_read`).  So the fault of a source that
cannot be cut into tokens lies in the source (`Scanner.exists_span_of_fault`).
-/

namespace ContentFilter

namespace Lexeme

/-- The characters at fault are one or more of the first `n`. -/
def Within (n : Nat) (m : Misread) : Prop := 1 ≤ m.span.len ∧ m.span.stop ≤ n

variable {b : Builtins} {c : Char} {r : List Char} {m : Misread}

lemma within_of_readSpelled (h : readSpelled c r = .error m) : Within (r.length + 1) m := by
  have hdoubled : ∀ {d : Char}, r.head? = some d → 2 ≤ r.length + 1 := by
    intro d hd
    cases r with
    | nil => cases hd
    | cons x r => simp
  unfold readSpelled at h
  split at h
  · next hc =>
    obtain rfl := Except.error.inj h
    exact ⟨by decide, hdoubled hc.2⟩
  · split at h
    · next hc =>
      obtain rfl := Except.error.inj h
      exact ⟨by decide, hdoubled hc.2⟩
    · split at h
      · cases h
      · split at h <;>
        · obtain rfl := Except.error.inj h
          exact ⟨Nat.le_refl 1, Nat.succ_le_succ (Nat.zero_le _)⟩

lemma within_of_readQuoted (h : readQuoted c r = .error m) : Within (r.length + 1) m := by
  unfold readQuoted at h
  split at h
  · cases h
  · obtain rfl := Except.error.inj h
    exact ⟨Nat.succ_le_succ (Nat.zero_le _), by simp [Span.stop]⟩

lemma within_of_readDigits {sign cs : List Char} (h : readDigits sign cs = .error m) :
    Within (sign.length + cs.length) m := by
  unfold readDigits at h
  simp only at h
  split at h
  · next rest hpoint =>
    split at h
    · obtain rfl := Except.error.inj h
      -- the digits are followed by the point, which is at fault as well
      have hsplit := congrArg List.length (List.takeWhile_append_dropWhile (p := Char.isDigit)
        (l := cs))
      rw [hpoint, List.length_append, List.length_cons] at hsplit
      refine ⟨by simp, ?_⟩
      simp only [Span.stop, List.length_append]
      omega
    · cases h
  · cases h

lemma within_of_readNumber (h : readNumber c r = .error m) : Within (r.length + 1) m := by
  unfold readNumber at h
  split at h
  · split at h
    · split at h
      · simpa [Nat.add_comm] using within_of_readDigits h
      · obtain rfl := Except.error.inj h
        exact ⟨Nat.le_refl 1, by simp [Span.stop]⟩
    · obtain rfl := Except.error.inj h
      exact ⟨Nat.le_refl 1, by simp [Span.stop]⟩
  · simpa using within_of_readDigits h

lemma within_of_nameLength {read : Nat} {afterDot : Bool} {cs : List Char}
    (h : nameLength read afterDot cs = .error m) : Within (read + cs.length) m := by
  fun_induction nameLength read afterDot cs with
  | case1 => cases h
  | case2 _ _ _ _ _ ih =>
    have hin := ih h
    rwa [Nat.add_right_comm, Nat.add_assoc] at hin
  | case3 read afterDot r hdot _ =>
    obtain rfl := Except.error.inj h
    cases r with
    | nil => cases hdot
    | cons d r => exact ⟨Nat.le_succ 1, by simp [Span.stop]⟩
  | case4 _ _ _ _ _ _ ih =>
    have hin := ih h
    rwa [Nat.add_right_comm, Nat.add_assoc] at hin
  | case5 =>
    obtain rfl := Except.error.inj h
    exact ⟨by simp, by simp [Span.stop]⟩
  | case6 =>
    obtain rfl := Except.error.inj h
    exact ⟨Nat.le_refl 1, by simp [Span.stop]⟩
  | case7 read afterDot c r _ _ _ _ hnext =>
    obtain rfl := Except.error.inj h
    cases r with
    | nil => cases hnext
    | cons d r => exact ⟨by simp, by simp [Span.stop]⟩
  | case8 _ _ _ _ _ _ _ _ _ ih =>
    have hin := ih h
    rwa [Nat.add_right_comm, Nat.add_assoc] at hin
  | case9 => cases h

/-- What is at fault in a failed reading lies in the text that was to be read. -/
theorem within_of_read (h : read b c r = .error m) : Within (r.length + 1) m := by
  unfold read at h
  split at h
  · exact within_of_readQuoted h
  · split at h
    · exact within_of_readNumber h
    · split at h
      · simpa using within_of_nameLength (Except.map_eq_error_iff.1 h)
      · exact within_of_readSpelled h

end Lexeme

namespace Scanner

/-- The fault of a source lies in it, and is not empty. -/
theorem exists_span_of_fault {b : Builtins} {s : Scanner} {e : Flagged LexicalCause}
    (h : s.tokens b = .error e) :
    ∃ span, e.mark = .span span ∧ 1 ≤ span.len ∧ span.stop ≤ s.position + s.rest.length := by
  obtain ⟨n, cs⟩ := s
  induction hlen : cs.length using Nat.strong_induction_on generalizing n cs with
  | _ k ih =>
  cases cs with
  | nil =>
    rw [tokens_nil] at h
    cases h
  | cons c r =>
    rw [List.length_cons] at hlen
    cases hgap : isGap c with
    | true =>
      rw [tokens_gap hgap] at h
      obtain ⟨span, hmark, hpos, hstop⟩ := ih r.length (by omega) _ _ h rfl
      refine ⟨span, hmark, hpos, ?_⟩
      simp only at hstop ⊢
      omega
    | false =>
      rw [tokens_lexeme hgap] at h
      cases hread : Lexeme.read b c r with
      | error m =>
        obtain ⟨hpos, hstop⟩ := Lexeme.within_of_read hread
        simp only [hread] at h
        obtain rfl := Except.error.inj h
        refine ⟨_, rfl, hpos, ?_⟩
        simp only [Span.stop] at hstop ⊢
        omega
      | ok l =>
        simp only [hread] at h
        have hlexeme := Lexeme.read_len_pos hread
        have hdrop : ((c :: r).drop l.len).length = r.length + 1 - l.len := by simp
        obtain ⟨span, hmark, hpos, hstop⟩ :=
          ih _ (by omega) _ _ (Except.map_eq_error_iff.1 h) rfl
        refine ⟨span, hmark, hpos, ?_⟩
        obtain ⟨word, rest, hsplit, hword, -⟩ := Lexeme.begins_of_read (b := b) hread
        have htotal := congrArg List.length hsplit
        simp only [List.length_cons, List.length_append] at htotal hstop hdrop ⊢
        omega

end Scanner
end ContentFilter
