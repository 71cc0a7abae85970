import CircuitWitness.Proofs.Effect
/-
  The moments of a run.

  Bodies are entered from inside requests, and they make requests of their own.  To speak about a
  whole run, with everything that happens below it, two notions are enough.

  * `Enters`: a request comes to enter a body at some state.  Requests know bodies only through the
    `Enter` they are given, so this can be said without looking into them: whatever failure the
    body ended with at that state, the request would end with the same failure.
  * `Program.Visits`: the moments that a program comes by.  These are the states before and after
    each of its requests, and, for every body that a request enters, the moments of that body.
    A moment also says which bodies are on the way, the innermost first.
-/

namespace CircuitWitness

/-- The state in which an action ends, whether or not it fails. -/
def Action.after {α : Type} (act : Action α) (c : Computation) : Computation :=
  match act c with
  | .ok _ c' => c'
  | .error _ c' => c'

/-- An action that returns ends in the state that it returns. -/
theorem Action.after_ok {α : Type} {act : Action α} {c c' : Computation} {a : α}
    (h : act c = .ok a c') : act.after c = c' := by unfold Action.after; rw [h]

/-- One that fails ends in the state that it fails in. -/
theorem Action.after_error {α : Type} {act : Action α} {c c' : Computation} {f : Fault}
    (h : act c = .error f c') : act.after c = c' := by unfold Action.after; rw [h]

/-- Whether an action returns. -/
def Action.returns {α : Type} (act : Action α) (c : Computation) : Bool :=
  match act c with
  | .ok _ _ => true
  | .error _ _ => false

/-- An action that returns nothing of its own is known by the state in which it ends. -/
theorem Action.eq_ok_after {act : Action Unit} {c : Computation} (h : act.returns c = true) :
    act c = .ok () (act.after c) := by
  unfold Action.returns at h
  unfold Action.after
  cases hact : act c with
  | ok _ _ => rfl
  | error _ _ =>
    rw [hact] at h
    cases h

/-! ## Entering bodies -/

/-- A body that is entered for a component, and the state in which that happens. -/
structure Entry where
  body : Body
  id : Handle
  state : Computation

/-- The same way of entering bodies, but for one entry, which fails. -/
noncomputable def Enter.failing (enter : Enter) (x : Entry) (f : Fault) (s : Computation) : Enter :=
  fun body id c => open Classical in
    if (⟨body, id, c⟩ : Entry) = x then .error f s else enter body id c

/-- The entry itself fails as it is told to. -/
theorem Enter.failing_self (enter : Enter) (x : Entry) (f : Fault) (s : Computation) :
    enter.failing x f s x.body x.id x.state = .error f s := by
  unfold Enter.failing; rw [if_pos rfl]

/-- All others are entered as before. -/
theorem Enter.failing_of_ne (enter : Enter) {x : Entry} {body : Body} {id : Handle}
    {c : Computation} (h : (⟨body, id, c⟩ : Entry) ≠ x) (f : Fault) (s : Computation) :
    enter.failing x f s body id c = enter body id c := by
  unfold Enter.failing; rw [if_neg h]

/-- On its way from a state, an action comes to an entry: if the body failed there, the action
    would fail with the same fault, whichever it is. -/
def Enters {α : Type} (enter : Enter) (act : Enter → Action α) (c : Computation) (x : Entry) :
    Prop :=
  ∀ f s, ∃ s', act (enter.failing x f s) c = .error f s'

/-- The program that a body is for a component. -/
def Body.program (body : Body) (id : Handle) : Program (Except Refusal Unit) :=
  ExceptT.run (body id)

/-- One of the templates of a circuit runs the body. -/
def Circuit.Runs (circuit : Circuit) (body : Body) : Prop :=
  ∃ t prefer, circuit.templates.body? t prefer = some body

/-! ## Moments -/

/-- A state, and the components whose bodies are being run in it, the innermost first. -/
structure Moment where
  stack : List Handle
  state : Computation

/-- The moments that a program comes by, with the request it is about to make, if any.  There is
    room for so many levels of bodies below the program itself. -/
inductive Program.Visits : {α : Type} → Nat → Program α → Moment → Option Request → Moment → Prop
  /-- The program has ended. -/
  | done {α : Type} {levels : Nat} {a : α} {m : Moment} : Visits levels (.done a) m none m
  /-- The program is about to make its first request. -/
  | asks {α : Type} {levels : Nat} {q : Request} {next : Except Refusal q.Answer → Program α}
      {m : Moment} : Visits levels (.ask q next) m (some q) m
  /-- The request is answered, and the program goes on. -/
  | answered {α : Type} {levels : Nat} {q : Request} {next : Except Refusal q.Answer → Program α}
      {m m' : Moment} {r : Option Request} {a : q.Answer} {c : Computation}
      (h : q.perform (enterWithin levels) m.state = .ok a c)
      (hv : Visits levels (next (.ok a)) ⟨m.stack, c⟩ r m') : Visits levels (.ask q next) m r m'
  /-- The request is refused, and the program goes on. -/
  | refused {α : Type} {levels : Nat} {q : Request} {next : Except Refusal q.Answer → Program α}
      {m m' : Moment} {r : Option Request} {e : Refusal} {c : Computation}
      (h : q.perform (enterWithin levels) m.state = .error (.refused e) c)
      (hv : Visits levels (next (.error e)) ⟨m.stack, c⟩ r m') : Visits levels (.ask q next) m r m'
  /-- The request ends the whole computation. -/
  | lost {α : Type} {levels : Nat} {q : Request} {next : Except Refusal q.Answer → Program α}
      {m : Moment} {f : Fault} {c : Computation}
      (h : q.perform (enterWithin levels) m.state = .error f c) (hf : ∀ e, f ≠ .refused e) :
      Visits levels (.ask q next) m none ⟨m.stack, c⟩
  /-- The request enters a body, which has moments of its own. -/
  | inside {α : Type} {levels : Nat} {q : Request} {next : Except Refusal q.Answer → Program α}
      {m m' : Moment} {r : Option Request} {x : Entry}
      (h : Enters (enterWithin (levels + 1)) (fun enter => q.perform enter) m.state x)
      (hv : Visits levels (x.body.program x.id) ⟨x.id :: m.stack, x.state⟩ r m') :
      Visits (levels + 1) (.ask q next) m r m'

/-- The first moment of a computation. -/
def Moment.start (circuit : Circuit) (config : Config) : Moment :=
  ⟨[], Computation.start circuit config⟩

/-! ## Programs that make only some requests -/

/-- A program makes none but certain requests, whatever it is answered. -/
def Program.Only {α : Type} (ok : Request → Prop) : Program α → Prop
  | .done _ => True
  | .ask q next => ok q ∧ ∀ answer, (next answer).Only ok

/-- The bodies of a circuit make none but certain requests. -/
def Circuit.Only (circuit : Circuit) (ok : Request → Prop) : Prop :=
  ∀ body, circuit.Runs body → ∀ id, Program.Only ok (body.program id)

end CircuitWitness
