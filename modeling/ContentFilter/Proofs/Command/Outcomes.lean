import ContentFilter.Command
import ContentFilter.Proofs.Command.Arguments
import ContentFilter.Proofs.Filter.TrailingBlanks
import ContentFilter.Proofs.Options.Validity
/-!
# What a command leaves behind

A filter or an order-by statement is given as an argument among the options or on the standard
input.  The options are valid or they are not, whatever the text is (`Settings.Misconfigured`); if
they are not, the command fails in the same way with every text.  Otherwise its exit code tells
whether the compiler accepts the text.  The text from the standard input is compiled without the
blanks at its end, which makes no difference but to the source that a refusal shows
(`Task.exit_codes_tell_apart`).

All this is said of commands without a log, which would add lines to the standard error output, and
for whatever words there are for a text with builtins that is not JSON.
-/

namespace ContentFilter

open Text

/-! ## The compiler that is set up -/

namespace Settings

/-- The compiler that the settings set up. -/
def compiler (s : Settings) (w : Surroundings) : Except CommandError Compiler := do
  let options ← s.options w
  options.compiler

/-- What can be wrong with settings, whatever the text is. -/
inductive Misconfigured (s : Settings) (w : Surroundings) : Prop
  /-- The file with builtins cannot be read. -/
  | file {name : String} {e : FileError} :
      s.builtinsFile = some name → w.file name = .error e → Misconfigured s w
  /-- The options are not valid. -/
  | options {o : Options} : s.options w = .ok o → o.Invalid → Misconfigured s w

variable {s : Settings} {w : Surroundings} {e : CommandError}

lemma options_eq_error_iff : s.options w = .error e ↔
    ∃ name cause, s.builtinsFile = some name ∧ w.file name = .error cause ∧
      e = .unreadable cause := by
  have hpure : ∀ {x : Option String} {f : Option String → Options},
      (return f x : Except CommandError Options) ≠ .error e := by simp [pure, Except.pure]
  simp only [options, Except.bind_eq_error_iff, hpure, and_false, exists_false, or_false,
    builtinsText]
  cases s.builtinsFile with
  | none => simp
  | some name => cases h : w.file name <;> simp [h, eq_comm]

/-- The settings set up a compiler exactly if nothing is wrong with them. -/
lemma exists_compiler_iff : (∃ c, s.compiler w = .ok c) ↔ ¬s.Misconfigured w := by
  simp only [compiler, Except.bind_eq_ok_iff]
  constructor
  · rintro ⟨c, o, ho, hc⟩ (⟨hname, hcause⟩ | ⟨ho', hinvalid⟩)
    · rw [options_eq_error_iff.2 ⟨_, _, hname, hcause, rfl⟩] at ho
      cases ho
    · obtain rfl := Except.ok.inj (ho.symm.trans ho')
      exact Options.not_invalid_of_compiler hc hinvalid
  · intro h
    cases ho : s.options w with
    | error e =>
      obtain ⟨name, cause, hname, hcause, -⟩ := options_eq_error_iff.1 ho
      exact absurd (.file hname hcause) h
    | ok o =>
      obtain ⟨c, hc⟩ := Options.exists_compiler_iff.2 fun hinvalid => h (.options ho hinvalid)
      exact ⟨c, o, rfl, hc⟩

lemma isQueryError_of_compiler (h : s.compiler w = .error e) : e.isQueryError = false := by
  rcases Except.bind_eq_error_iff.1 h with h | ⟨o, -, h⟩
  · obtain ⟨_, _, -, -, rfl⟩ := options_eq_error_iff.1 h
    rfl
  · exact Options.isQueryError_of_compiler h

end Settings

/-! ## Running a command on a text -/

/-- What a text is compiled as. -/
inductive Task where
  | filter
  | ordering
deriving DecidableEq, Repr

/-- How a text is given to a command. -/
inductive Channel where
  /-- The text is one of the arguments. -/
  | argument
  /-- The text stands on the standard input. -/
  | input
deriving DecidableEq, Repr

/-- What is compiled of a text that is given. -/
def Channel.source (q : String) : Channel → String
  | argument => q
  | input => String.ofList (trimEnd q.toList)

namespace Task

/-- The name of the command. -/
def name : Task → String
  | filter => "compile"
  | ordering => "order"

/-- The command with its settings. -/
def command : Task → Settings → Command
  | filter => .compile
  | ordering => .order

/-- The settings that the command can have: only a filter is compiled to what may be spread over
several lines. -/
def Admits : Task → Settings → Prop
  | filter, _ => True
  | ordering, s => s.pretty = false

/-- What a compiler makes of a text, as it is written. -/
def compiled (k : Task) (c : Compiler) (s : Settings) (text : String) : Except ParseError String :=
  match k with
  | filter => (c.compile text).map fun f => f.json.text (if s.pretty then .pretty else .compact)
  | ordering => c.order text

variable {k : Task} {s : Settings} {w : Surroundings} {args before behind : List String}
  {c : Compiler} {text : String} {e : CommandError}

lemma read?_eq (h : Settings.ofArguments? args = some s) (hadmits : k.Admits s) :
    Command.read? (k.name :: args) = some (k.command s) := by
  cases k with
  | filter => simp [name, Command.read?, h, command]
  | ordering =>
    have hpretty : s.pretty = false := hadmits
    simp [name, Command.read?, h, command, Option.filter, hpretty]

/-- A command with a text compiles it, or fails because there is no compiler. -/
lemma answer_eq (htext : s.source w = .ok text) : (k.command s).answer w =
    s.compiler w >>= fun c => ((k.compiled c s text).map (· ++ "\n")).mapError .refused := by
  cases k with
  | filter =>
    simp only [command, Command.answer, htext, Settings.compiler, Options.compile, compiled,
      bind_assoc]
    refine bind_congr (x := s.options w) fun o => bind_congr fun c => ?_
    cases c.compile text <;> rfl
  | ordering =>
    simp only [command, Command.answer, htext, Settings.compiler, Options.order, compiled,
      bind_assoc]
    refine bind_congr (x := s.options w) fun o => bind_congr fun c => ?_
    cases c.order text <;> rfl

/-- Without a compiler the command fails, and the text is not to blame. -/
lemma run_of_no_compiler (htext : s.source w = .ok text) (h : s.compiler w = .error e) :
    (k.command s).run w = ⟨1, "", e.message w.jsonWords ++ "\n"⟩ := by
  simp only [Command.run, answer_eq htext, h, bind, Except.bind,
    Settings.isQueryError_of_compiler h, Bool.false_eq_true, if_false]

lemma run_of_accepted {out : String} (htext : s.source w = .ok text) (hc : s.compiler w = .ok c)
    (h : k.compiled c s text = .ok out) : (k.command s).run w = ⟨0, out ++ "\n", ""⟩ := by
  simp only [Command.run, answer_eq htext, hc, bind, Except.bind, h, Except.map, Except.mapError]

lemma run_of_refused {cause : ParseError} (htext : s.source w = .ok text)
    (hc : s.compiler w = .ok c) (h : k.compiled c s text = .error cause) :
    (k.command s).run w = ⟨2, "", "Parse error: " ++ cause.text ++ "\n"⟩ := by
  simp only [Command.run, answer_eq htext, hc, bind, Except.bind, h, Except.map, Except.mapError]
  rfl

/-- The blanks at the end of a text make no difference to what it is compiled to. -/
lemma compiled_trimEnd (k : Task) (c : Compiler) (s : Settings) (text : String) :
    Except.Rel (fun _ _ => True) Eq (k.compiled c s (String.ofList (trimEnd text.toList)))
      (k.compiled c s text) := by
  cases k with
  | filter => exact (c.compile_trimEnd text).map fun f f' hf => by rw [hf]
  | ordering =>
    rw [compiled, compiled, c.order_trimEnd text]
    cases c.order text with
    | error e => exact .error trivial
    | ok sql => exact .ok rfl

lemma runArgs_eq (h : Settings.ofArguments? args = some s) (hadmits : k.Admits s) :
    Command.runArgs w (k.name :: args) = (k.command s).run w := by
  rw [Command.runArgs, read?_eq h hadmits]

/-! ### Both ways to give a text -/

variable {q : String}

/-- The arguments `before` and `behind` hold the options of `s` and no text, and no option awaits
its value between them. -/
structure TakesOptions (k : Task) (before behind : List String) (s : Settings) : Prop where
  between : (Settings.ofArguments? before).isSome = true
  whole : Settings.ofArguments? (before ++ behind) = some s
  text : s.text = none
  admits : k.Admits s

/-- What is left behind when a text is given between two lists of arguments, or on the standard
input with the arguments of both. -/
def outcome (k : Task) (w : Surroundings) (before behind : List String) (q : String) :
    Channel → Outcome
  | .argument => Command.runArgs w (k.name :: (before ++ q :: behind))
  | .input => Command.runArgs { w with input := some q } (k.name :: (before ++ behind))

/-- What is compiled comes out like the text that is given. -/
lemma compiled_source (k : Task) (c : Compiler) (s : Settings) (q : String) (ch : Channel) :
    Except.Rel (fun _ _ => True) Eq (k.compiled c s (ch.source q)) (k.compiled c s q) := by
  cases ch with
  | argument =>
    rw [Channel.source]
    cases k.compiled c s q with
    | error e => exact .error trivial
    | ok out => exact .ok rfl
  | input => exact compiled_trimEnd k c s q

/-- Both ways to give a text lead to a command that compiles it in the same way. -/
lemma exists_outcome_eq (h : k.TakesOptions before behind s) (hq : q.toList.head? ≠ some '-')
    (ch : Channel) :
    ∃ t v, k.outcome w before behind q ch = (k.command t).run v ∧ t.source v = .ok (ch.source q) ∧
      t.compiler v = s.compiler w ∧ v.jsonWords = w.jsonWords ∧
      ∀ c, k.compiled c t = k.compiled c s := by
  cases ch with
  | argument =>
    obtain ⟨s', hbetween⟩ := Option.isSome_iff_exists.1 h.between
    have hinsert := Settings.ofArguments?_insert hbetween h.whole h.text hq
    have hadmits : k.Admits (s.withText q) := by
      cases k with
      | filter => trivial
      | ordering => exact h.admits
    exact ⟨s.withText q, w, runArgs_eq hinsert hadmits, rfl, rfl, rfl,
      fun c => by cases k <;> rfl⟩
  | input =>
    refine ⟨s, { w with input := some q }, runArgs_eq h.whole h.admits, ?_, rfl, rfl,
      fun _ => rfl⟩
    simp only [Settings.source, h.text]
    rfl

lemma outcome_of_no_compiler (h : k.TakesOptions before behind s)
    (hq : q.toList.head? ≠ some '-') (hc : s.compiler w = .error e) (ch : Channel) :
    k.outcome w before behind q ch = ⟨1, "", e.message w.jsonWords ++ "\n"⟩ := by
  obtain ⟨t, v, hrun, hsource, hcompiler, hwords, -⟩ := exists_outcome_eq (w := w) h hq ch
  rw [hrun, run_of_no_compiler hsource (hcompiler.trans hc), hwords]

/-- What is left behind if there is a compiler: what it makes of the text, or else why it refuses
what it is given. -/
lemma outcome_cases (h : k.TakesOptions before behind s) (hq : q.toList.head? ≠ some '-')
    (hc : s.compiler w = .ok c) (ch : Channel) :
    (∀ out, k.compiled c s q = .ok out →
        k.outcome w before behind q ch = ⟨0, out ++ "\n", ""⟩) ∧
      ∀ e, k.compiled c s q = .error e → ∃ e', k.compiled c s (ch.source q) = .error e' ∧
        k.outcome w before behind q ch = ⟨2, "", "Parse error: " ++ e'.text ++ "\n"⟩ := by
  obtain ⟨t, v, hrun, hsource, hcompiler, -, hcompiled⟩ := exists_outcome_eq (w := w) h hq ch
  have hv := hcompiler.trans hc
  have hrel := compiled_source k c s q ch
  constructor
  · intro out hout
    rw [hout] at hrel
    rw [hrun, run_of_accepted hsource hv ((congrFun (hcompiled c) _).trans hrel.eq_ok)]
  · intro e he
    rw [he] at hrel
    obtain ⟨e', he', -⟩ := hrel.exists_eq_error
    refine ⟨e', he', ?_⟩
    rw [hrun, run_of_refused hsource hv ((congrFun (hcompiled c) _).trans he')]

/-! ### What the exit code tells -/

/-- How a command with the options of `s` tells options that are not valid from texts that are not
accepted. -/
structure TellsApart (k : Task) (w : Surroundings) (before behind : List String) (s : Settings) :
    Prop where
  /-- If the options are not valid, every text leads to exit code 1 and to the same words. -/
  misconfigured : s.Misconfigured w → ∃ e : CommandError, s.compiler w = .error e ∧
    ∀ (q : String) (ch : Channel), q.toList.head? ≠ some '-' →
      k.outcome w before behind q ch = ⟨1, "", e.message w.jsonWords ++ "\n"⟩
  /-- Valid options set up a compiler.  The exit code is 0, without any words, for exactly the texts
  that the compiler accepts, and what they are compiled to is the output.  Otherwise it is 2, with
  the words of the compiler. -/
  configured : ¬s.Misconfigured w → ∃ c, s.compiler w = .ok c ∧
    ∀ (q : String) (ch : Channel), q.toList.head? ≠ some '-' →
      let o := k.outcome w before behind q ch
      (o.exitCode = 0 ∧ o.errors = "" ↔ ∃ out, k.compiled c s q = .ok out) ∧
        (∀ out, k.compiled c s q = .ok out → o = ⟨0, out ++ "\n", ""⟩) ∧
        ∀ e, k.compiled c s q = .error e → ∃ e', k.compiled c s (ch.source q) = .error e' ∧
          o = ⟨2, "", "Parse error: " ++ e'.text ++ "\n"⟩
  /-- It makes no difference to the exit code and to the output how a text is given, nor to the
  words if there are no blanks at its end. -/
  channels : ∀ q : String, q.toList.head? ≠ some '-' →
    let o := k.outcome w before behind q .argument
    let o' := k.outcome w before behind q .input
    o.exitCode = o'.exitCode ∧ o.output = o'.output ∧
      ((∀ b ∈ q.toList.getLast?, isBlank b = false) → o.errors = o'.errors)

/-- The exit code of a command tells options that are not valid from texts that are not accepted,
and both ways to give a text agree.  What is written to the standard error output is that of a
command without a log. -/
theorem exit_codes_tell_apart (h : k.TakesOptions before behind s) :
    k.TellsApart w before behind s where
  misconfigured hwrong := by
    cases hc : s.compiler w with
    | ok c => exact absurd hwrong (Settings.exists_compiler_iff.1 ⟨c, hc⟩)
    | error e => exact ⟨e, rfl, fun q ch hq => outcome_of_no_compiler h hq hc ch⟩
  configured hright := by
    obtain ⟨c, hc⟩ := Settings.exists_compiler_iff.2 hright
    refine ⟨c, hc, fun q ch hq => ?_⟩
    obtain ⟨haccepted, hrefused⟩ := outcome_cases h hq hc ch
    refine ⟨?_, haccepted, hrefused⟩
    cases hq' : k.compiled c s q with
    | ok out => simp [haccepted out hq']
    | error e =>
      obtain ⟨e', -, ho⟩ := hrefused e hq'
      simp [ho]
  channels q hq := by
    cases hc : s.compiler w with
    | error e =>
      have hboth := outcome_of_no_compiler h hq hc
      simp [hboth]
    | ok c =>
      have hboth := outcome_cases h hq hc
      cases hq' : k.compiled c s q with
      | ok out => simp [(hboth _).1 out hq']
      | error e =>
        obtain ⟨e', he', ho⟩ := (hboth .argument).2 e hq'
        obtain ⟨e'', he'', ho'⟩ := (hboth .input).2 e hq'
        refine ⟨by rw [ho, ho'], by rw [ho, ho'], fun hblank => ?_⟩
        have hsource : Channel.input.source q = Channel.argument.source q := by
          simp only [Channel.source, trimEnd_eq_self hblank, String.ofList_toList]
        rw [hsource] at he''
        obtain rfl := Except.error.inj (he'.symm.trans he'')
        rw [ho, ho']

/-- A statement with a blank at its end between two options, and any filter in front of an option
that names a missing file. -/
theorem exit_codes_tell_apart_of_missing_file :
    let w : Surroundings := ⟨fun _ => none, none, fun _ => .error .missing, fun _ => ""⟩
    let s : Settings := ⟨none, some "sqlite", ["published=n.published"], none, none, false⟩
    let s' : Settings := ⟨none, none, [], some "builtins.json", none, false⟩
    (ordering.TakesOptions ["-d", "sqlite"] ["-b", "published=n.published"] s ∧
      ¬s.Misconfigured w ∧
      ∀ ch, ordering.outcome w ["-d", "sqlite"] ["-b", "published=n.published"]
        "published desc " ch = ⟨0, "n.published DESC\n", ""⟩) ∧
    filter.TakesOptions [] ["--builtins", "builtins.json"] s' ∧ s'.Misconfigured w ∧
      ∀ q ch, q.toList.head? ≠ some '-' →
        filter.outcome w [] ["--builtins", "builtins.json"] q ch =
          ⟨1, "", "IO error: No such file or directory (os error 2)\n"⟩ := by
  intro w s s'
  have htakes : ordering.TakesOptions ["-d", "sqlite"] ["-b", "published=n.published"] s :=
    ⟨by decide, by decide, rfl, rfl⟩
  have htakes' : filter.TakesOptions [] ["--builtins", "builtins.json"] s' :=
    ⟨by decide, by decide, rfl, trivial⟩
  have hright : ¬s.Misconfigured w :=
    Settings.exists_compiler_iff.1 (Except.exists_of_isOk (by decide +kernel))
  have hwrong : s'.Misconfigured w := .file rfl rfl
  obtain ⟨c, hc, hjudged⟩ := (exit_codes_tell_apart htakes).configured hright
  obtain ⟨e, he, hsame⟩ := (exit_codes_tell_apart htakes').misconfigured hwrong
  have hout : (s.compiler w).map (fun c => (c.order "published desc ").toOption) =
      .ok (some "n.published DESC") := by decide +kernel
  rw [hc] at hout
  refine ⟨⟨htakes, hright, fun ch => ?_⟩, htakes', hwrong, ?_⟩
  · have haccepted := (hjudged "published desc " ch (by decide)).2.1 "n.published DESC"
    exact haccepted (Except.eq_ok_of_toOption (Except.ok.inj hout))
  · obtain rfl : CommandError.unreadable .missing = e := Except.error.inj he
    exact hsame

end Task
end ContentFilter
