import ContentFilter.Settings
import Mathlib.Tactic.Lemma
import Mathlib.Tactic.SplitIfs
/-!
# A text among the options

The arguments of a command hold one text at most.  No option looks at it, so a step that reads
another argument does the same whatever the text is (`Reading.step?_withText`); and a text that is
written anywhere among options, but not where the value of one is awaited, is the text of the
settings, which are otherwise those of the options (`Settings.ofArguments?_insert`).
-/

namespace ContentFilter

/-- The settings with another text, or with none. -/
def Settings.withText (s : Settings) (x : Option String) : Settings := { s with text := x }

/-- The reading with another text, or with none. -/
def Reading.withText (r : Reading) (x : Option String) : Reading :=
  { r with settings := r.settings.withText x }

namespace Settings

variable {s : Settings} {x : Option String} {value : String}

lemma put?_withText (option : Setting) :
    (s.withText x).put? value option = (s.put? value option).map (·.withText x) := by
  cases option with
  | builtin => rfl
  | dialect | builtinsFile | stem =>
    simp only [put?, apply_ite (Option.map _)]
    rfl

lemma putPretty?_withText : (s.withText x).putPretty? = s.putPretty?.map (·.withText x) := by
  simp only [putPretty?, apply_ite (Option.map _)]
  rfl

end Settings

namespace Reading

variable {r r' : Reading} {x : Option String} {arg text : String}

lemma withText_self (r : Reading) : r.withText r.settings.text = r := rfl

lemma take?_withText (option : Setting) (value : Option String) :
    (r.withText x).take? option value = (r.take? option value).map (·.withText x) := by
  cases value with
  | none => rfl
  | some value =>
    simp only [take?, withText, Settings.put?_withText]
    cases r.settings.put? value option <;> rfl

lemma takeLetters?_withText (letters : List Char) :
    (r.withText x).takeLetters? letters = (r.takeLetters? letters).map (·.withText x) := by
  induction letters generalizing r with
  | nil => rfl
  | cons c cs ih =>
    rw [takeLetters?, takeLetters?]
    split_ifs
    · simp only [withText, Settings.putPretty?_withText]
      cases r.settings.putPretty? with
      | none => rfl
      | some s => exact ih (r := { r with settings := s })
    · cases Setting.ofLetter? c with
      | none => rfl
      | some option =>
        simp only [Option.bind_some]
        split <;> exact take?_withText option _

/-- What is read from an argument that is no text does not depend on the text. -/
lemma takeArgument?_withText {a : Argument} (ha : ∀ text, a ≠ .text text) :
    (r.withText x).takeArgument? a = (r.takeArgument? a).map (·.withText x) := by
  cases a with
  | divider => rfl
  | long name value =>
    simp only [takeArgument?]
    split_ifs
    · rfl
    · simp only [withText, Settings.putPretty?_withText]
      cases r.settings.putPretty? <;> rfl
    · cases Setting.ofName? name with
      | none => rfl
      | some option => exact take?_withText option value
  | short letters => exact takeLetters?_withText letters
  | text text => exact absurd rfl (ha text)

/-- Once there is a text it stays. -/
lemma text_of_takeArgument?_text (h : r.takeArgument? (.text text) = some r') :
    r'.settings.text = some text := by
  obtain ⟨s, hs, rfl⟩ := Option.map_eq_some_iff.1 h
  simp only [Settings.putText?] at hs
  split_ifs at hs
  obtain rfl := Option.some.inj hs
  rfl

/-! ### Steps -/

lemma step?_of_ended (hended : r.ended = true) : r.step? arg = r.takeArgument? (.text arg) :=
  if_pos hended

lemma step?_of_none (hended : r.ended = false) (hawaited : r.awaited = none) :
    r.step? arg = r.takeArgument? (.ofString arg) := by
  simp [step?, hended, hawaited]

lemma step?_of_some {option : Setting} (hended : r.ended = false)
    (hawaited : r.awaited = some option) : r.step? arg =
      match Argument.ofString arg with
      | .text value => { r with awaited := none }.take? option (some value)
      | _ => none := by
  simp only [step?, hended, hawaited, Bool.false_eq_true, if_false]
  cases Argument.ofString arg <;> rfl

/-- A text is read where no value is awaited. -/
lemma step?_text (hawaited : r.awaited = none) (harg : Argument.ofString arg = .text arg) :
    r.step? arg = r.takeArgument? (.text arg) := by
  cases hended : r.ended with
  | true => exact step?_of_ended hended
  | false => rw [step?_of_none hended hawaited, harg]

/-- A step that reads no text does the same with any text. -/
lemma step?_withText (h : r.step? arg = some r') (hnone : r'.settings.text = none)
    (x : Option String) : (r.withText x).step? arg = some (r'.withText x) := by
  have hargument : ∀ a : Argument, r.takeArgument? a = some r' →
      (r.withText x).takeArgument? a = some (r'.withText x) := by
    intro a ha
    have hne : ∀ text, a ≠ .text text := by
      rintro text rfl
      rw [text_of_takeArgument?_text ha] at hnone
      cases hnone
    rw [takeArgument?_withText hne, ha]
    rfl
  cases hended : r.ended with
  | true =>
    rw [step?_of_ended hended] at h
    rw [step?_of_ended (r := r.withText x) hended]
    exact hargument _ h
  | false =>
    cases hawaited : r.awaited with
    | none =>
      rw [step?_of_none hended hawaited] at h
      rw [step?_of_none (r := r.withText x) hended hawaited]
      exact hargument _ h
    | some option =>
      rw [step?_of_some hended hawaited] at h
      rw [step?_of_some (r := r.withText x) hended hawaited]
      cases hof : Argument.ofString arg with
      | text value =>
        rw [hof] at h
        have htake := take?_withText (r := { r with awaited := none }) (x := x) option (some value)
        exact htake.trans (congrArg (Option.map (·.withText x)) h)
      | divider | long | short =>
        rw [hof] at h
        cases h

/-- If there is no text behind a step, there was none before it. -/
lemma text_eq_none_of_step? (h : r.step? arg = some r') (hnone : r'.settings.text = none) :
    r.settings.text = none := by
  have hself := step?_withText h hnone r.settings.text
  rw [withText_self, h] at hself
  exact (congrArg (·.settings.text) (Option.some.inj hself)).symm.trans hnone

/-! ### Runs -/

variable {args : List String}

lemma text_eq_none_of_foldlM (h : args.foldlM step? r = some r')
    (hnone : r'.settings.text = none) : r.settings.text = none := by
  induction args generalizing r with
  | nil =>
    obtain rfl : r = r' := Option.some.inj h
    exact hnone
  | cons arg args ih =>
    obtain ⟨q, hstep, hrun⟩ := Option.bind_eq_some_iff.1 h
    exact text_eq_none_of_step? hstep (ih hrun)

/-- Arguments among which there is no text are read in the same way with any text. -/
lemma foldlM_withText (h : args.foldlM step? r = some r') (hnone : r'.settings.text = none)
    (x : Option String) : args.foldlM step? (r.withText x) = some (r'.withText x) := by
  induction args generalizing r with
  | nil =>
    obtain rfl : r = r' := Option.some.inj h
    rfl
  | cons arg args ih =>
    obtain ⟨q, hstep, hrun⟩ := Option.bind_eq_some_iff.1 h
    rw [List.foldlM_cons, step?_withText hstep (text_eq_none_of_foldlM hrun hnone) x]
    exact ih hrun

end Reading

namespace Settings

variable {s s' : Settings} {text : String} {args before behind : List String}

lemma ofArguments?_eq_some_iff : ofArguments? args = some s ↔
    ∃ r, args.foldlM Reading.step? .start = some r ∧ r.awaited = none ∧ r.settings = s := by
  rw [ofArguments?, Option.bind_eq_some_iff]
  refine exists_congr fun r => and_congr_right fun _ => ?_
  cases r.awaited <;> simp

/-- A text among the arguments of options, in front of them, behind them or between two of them, is
the text of the settings. -/
theorem ofArguments?_insert (hbefore : ofArguments? before = some s')
    (h : ofArguments? (before ++ behind) = some s) (hnone : s.text = none)
    (htext : text.toList.head? ≠ some '-') :
    ofArguments? (before ++ text :: behind) = some (s.withText text) := by
  obtain ⟨q, hq, hawaited, -⟩ := ofArguments?_eq_some_iff.1 hbefore
  obtain ⟨r, hr, hr', rfl⟩ := ofArguments?_eq_some_iff.1 h
  rw [List.foldlM_append, hq, Option.bind_eq_bind, Option.bind_some] at hr
  have hqnone := Reading.text_eq_none_of_foldlM hr hnone
  have hput : q.settings.putText? text = some (q.settings.withText text) :=
    if_neg (by simp [hqnone])
  have hstep : q.step? text = some (q.withText text) := by
    rw [Reading.step?_text hawaited (Argument.ofString_eq_text htext), Reading.takeArgument?, hput]
    rfl
  refine ofArguments?_eq_some_iff.2 ⟨r.withText text, ?_, hr', rfl⟩
  rw [List.foldlM_append, hq, Option.bind_eq_bind, Option.bind_some, List.foldlM_cons, hstep]
  exact Reading.foldlM_withText hr hnone text

/-- The text between two options. -/
example : ofArguments? ["-d", "sqlite", "a", "-b=x=y"] =
    (ofArguments? ["-d", "sqlite", "-b=x=y"]).map (·.withText "a") := by decide

end Settings
end ContentFilter
