import ContentFilter.Compiler
import ContentFilter.Proofs.Outcome
import ContentFilter.Proofs.Sql.Journal
/-!
# Sessions on a shared sink

Several callers share a sink: some bind single values, others compile filters into it, with
compilers of their own.  A call is a program that changes the journal of the sink and may be
refused; what was bound up to the refusal would stay.  A filter is read before the first value is
bound, though, so a refused call leaves no trace (`Call.run_cases`).

A session is a sequence of calls, each on what the one before has left.  Whatever the calls are, no
binding is lost or made twice, and the outcome is as if the refused calls had not been made
(`Session.accounted`).
-/

namespace ContentFilter

/-- A program that binds values in a journal, and that may be refused. -/
abbrev Binding := ExceptT ParseError (StateM Journal)

/-- Compile a filter into the sink of a journal, one hole after the other. -/
def Compiler.compileOnto (c : Compiler) (query : String) : Binding String := do
  let nodes ← c.parse query
  (Node.templateOf nodes).write

/-- A call on a shared sink. -/
inductive Call where
  /-- Bind a value. -/
  | add (value : Scalar)
  /-- Compile a filter. -/
  | compile (compiler : Compiler) (query : String)

namespace Call

/-- What a call does: it answers with a placeholder or with SQL, or it is refused. -/
def perform : Call → Binding String
  | add v => modifyGet fun j => j.add v
  | compile c query => c.compileOnto query

/-- The answer of a call, and the journal that it leaves. -/
def run (call : Call) (j : Journal) : Except ParseError String × Journal := call.perform.run.run j

/-- All that a call can do: it is refused and leaves everything as it was, or it writes its
template. -/
lemma run_cases (call : Call) :
    (∃ e, ∀ j, call.run j = (.error e, j)) ∨
      ∃ t : Template, ∀ j, call.run j = (.ok (t.fill j.sink).1, (t.write.run j).2) := by
  cases call with
  | add v =>
    refine .inr ⟨[.hole v], fun j => ?_⟩
    simp only [Template.fill, String.append_empty]
    rfl
  | compile c query =>
    cases hparse : c.parse query with
    | error e =>
      refine .inl ⟨e, fun j => ?_⟩
      rw [run, perform, Compiler.compileOnto, hparse]
      rfl
    | ok nodes =>
      refine .inr ⟨Node.templateOf nodes, fun j => ?_⟩
      have hwrite := Template.run_write (Node.templateOf nodes) j
      rw [← congrArg Prod.fst hwrite, run, perform, Compiler.compileOnto, hparse]
      rfl

/-- A call loses nothing. -/
lemma keeps {c : Counter} {j : Journal} (h : j.Keeps c) (call : Call) :
    (call.run j).2.Keeps c := by
  obtain ⟨e, hrun⟩ | ⟨t, hrun⟩ := call.run_cases
  · rw [hrun]
    exact h
  · rw [hrun]
    exact h.write t

/-- A call only adds to the journal. -/
lemma extends_run {c : Counter} {j : Journal} (h : j.Keeps c) (call : Call) :
    j.Extends (call.run j).2 := by
  refine h.extends (keeps h call) ?_
  obtain ⟨e, hrun⟩ | ⟨t, hrun⟩ := call.run_cases
  · exact ⟨[], by rw [hrun, List.append_nil]⟩
  · rw [hrun, Template.run_write]
    exact List.prefix_append _ _

/-- A call that is refused leaves the journal as it was. -/
lemma eq_of_refused {call : Call} {j j' : Journal} {e : ParseError}
    (h : call.run j = (.error e, j')) : j' = j := by
  obtain ⟨e, hrun⟩ | ⟨t, hrun⟩ := call.run_cases
  · rw [hrun] at h
    exact (congrArg Prod.snd h).symm
  · rw [hrun] at h
    cases congrArg Prod.fst h

/-- A call gives what the function it stands for gives for the sink at hand. -/
def Agrees (j : Journal) : Call → Prop
  | add v => (add v).run j = (.ok (j.sink.add v).1, (j.add v).2)
  | compile c query =>
    match c.compileInto query j.sink with
    | .ok (sql, sink) => ((compile c query).run j).1 = .ok sql ∧
        ((compile c query).run j).2.sink = sink
    | .error e => (compile c query).run j = (.error e, j)

lemma agrees (call : Call) (j : Journal) : call.Agrees j := by
  cases call with
  | add v => exact rfl
  | compile c query =>
    rw [Agrees, run, perform, Compiler.compileOnto, Compiler.compileInto]
    cases c.parse query with
    | error e => exact rfl
    | ok nodes =>
      have hwrite := Template.run_write (Node.templateOf nodes) j
      exact ⟨congrArg Except.ok (congrArg Prod.fst hwrite), congrArg (fun p => p.2.sink) hwrite⟩

end Call

namespace Session

/-- The answers of some calls, one after the other, and the journal that they leave. -/
def run : List Call → Journal → List (Except ParseError String) × Journal
  | [], j => ([], j)
  | call :: calls, j =>
    let (answer, j) := call.run j
    let (answers, j) := run calls j
    (answer :: answers, j)

/-- The calls that are not refused. -/
def accepted (calls : List Call) (j : Journal) : List Call :=
  ((calls.zip (run calls j).1).filter fun p => p.2.isOk).map Prod.fst

variable {c : Counter} {j : Journal}

lemma run_cons (call : Call) (calls : List Call) (j : Journal) :
    run (call :: calls) j =
      ((call.run j).1 :: (run calls (call.run j).2).1, (run calls (call.run j).2).2) := rfl

/-- A session loses nothing. -/
lemma keeps (h : j.Keeps c) (calls : List Call) : (run calls j).2.Keeps c := by
  induction calls generalizing j with
  | nil => exact h
  | cons call calls ih =>
    rw [run_cons]
    exact ih (call.keeps h)

/-- The calls that are not refused give the same answers without the others, and leave the same
journal. -/
lemma run_accepted (calls : List Call) (j : Journal) :
    run (accepted calls j) j =
      ((run calls j).1.filter fun answer => answer.isOk, (run calls j).2) := by
  induction calls generalizing j with
  | nil => rfl
  | cons call calls ih =>
    obtain ⟨e, hrun⟩ | ⟨t, hrun⟩ := call.run_cases
    · -- nothing has changed, so the rest of the session is as it would be without this call
      have hskip : accepted (call :: calls) j = accepted calls j := by
        simp only [accepted, run_cons, hrun, List.zip_cons_cons, List.filter_cons]
        rfl
      rw [hskip, ih, run_cons, hrun, List.filter_cons]
      rfl
    · have hkeep : accepted (call :: calls) j = call :: accepted calls (call.run j).2 := by
        simp only [accepted, run_cons, hrun, List.zip_cons_cons, List.filter_cons]
        rfl
      rw [hkeep, run_cons, run_cons, ih, hrun, List.filter_cons]
      rfl

/-- What is true of every session on a sink that was made from a counter. -/
structure Accounted (c : Counter) (calls : List Call) : Prop where
  /-- Each call does what the function it stands for does with the sink that it finds. -/
  agrees : ∀ before call after, calls = before ++ call :: after →
    call.Agrees (run before (.ofCounter c)).2
  /-- A refused call leaves the sink as it was, with its counter. -/
  refused : ∀ before call after, calls = before ++ call :: after → ∀ e j',
    call.run (run before (.ofCounter c)).2 = (.error e, j') →
      j' = (run before (.ofCounter c)).2
  /-- No call takes back a binding or changes one. -/
  extended : ∀ before call after, calls = before ++ call :: after →
    (run before (.ofCounter c)).2.Extends (call.run (run before (.ofCounter c)).2).2
  /-- At the end the names are consecutive, and each is bound to the value it was given for. -/
  keeps : (run calls (.ofCounter c)).2.Keeps c
  /-- No name was handed out twice. -/
  nodup : ((run calls (.ofCounter c)).2.entries.map Prod.fst).Nodup
  /-- Without the refused calls, the other ones have the same answers and leave the same sink. -/
  accepted : run (accepted calls (.ofCounter c)) (.ofCounter c) =
    ((run calls (.ofCounter c)).1.filter fun answer => answer.isOk, (run calls (.ofCounter c)).2)

/-- On a sink that is made from a counter, at whatever number it stands, any calls by any compilers
keep the names and values in full account. -/
theorem accounted (c : Counter) (calls : List Call) : Accounted c calls :=
  have hkeeps : ∀ calls, (run calls (.ofCounter c)).2.Keeps c :=
    keeps (Journal.keeps_ofCounter c)
  { agrees := fun _ call _ _ => call.agrees _
    refused := fun _ _ _ _ _ _ h => Call.eq_of_refused h
    extended := fun before call _ _ => call.extends_run (hkeeps before)
    keeps := hkeeps calls
    nodup := (hkeeps calls).nodup
    accepted := run_accepted calls _ }

end Session
end ContentFilter
