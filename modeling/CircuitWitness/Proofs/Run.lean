import CircuitWitness.Proofs.Request
/-
  Every moment of a run lies on a path of steps.

  The induction is on the levels of bodies that fit below a program, and for each level on the
  program.  A request moves by steps if the bodies it enters do; these have one level less below
  them; and the requests they make are requests of the run, so what is known of all requests of
  the run is known of theirs.
-/

namespace CircuitWitness

open CircuitWitness.Action

variable {π : Policy}

/-- A body ends where its program ends. -/
theorem after_enterWithin (levels : Nat) (body : Body) (id : Handle) (c : Computation) :
    (enterWithin (levels + 1) body id).after c
      = ((body.program id).runWith (enterWithin levels)).after c := by
  show ((body.program id).runWith (enterWithin levels) >>= _ : Action Unit).after c = _
  cases hr : (body.program id).runWith (enterWithin levels) c with
  | error f c' => rw [after_error (bind_error hr), after_error hr]
  | ok res c' =>
    rw [after_bind hr, after_ok hr]
    cases res <;> rfl

/-! ## How a program goes on after a request -/

section Goes

variable {α : Type} {enter : Enter} {q : Request} {next : Except Refusal q.Answer → Program α}
  {c c' : Computation}

/-- A program is followed by the answers: after one that is given, -/
theorem runWith_answered {a : q.Answer} (h : q.perform enter c = .ok a c') :
    (Program.ask q next).runWith enter c = (next (.ok a)).runWith enter c' := by
  simp only [Program.runWith, h]

/-- after a refusal, of which it is told, -/
theorem runWith_refused {e : Refusal} (h : q.perform enter c = .error (.refused e) c') :
    (Program.ask q next).runWith enter c = (next (.error e)).runWith enter c' := by
  simp only [Program.runWith, h]

/-- and no further when the request goes out of range. -/
theorem runWith_lost {f : Fault} (h : q.perform enter c = .error f c')
    (hf : ∀ e, f ≠ .refused e) : (Program.ask q next).runWith enter c = .error f c' := by
  cases f with
  | refused e => exact absurd rfl (hf e)
  | outOfRange | tooDeep => simp only [Program.runWith, h]

end Goes

/-! ## The induction -/

/-- What is to be known of the bodies that a program enters, with so many levels below it: they
    move by steps, and their moments lie on a path, if their requests are allowed. -/
def BodiesStep (π : Policy) (levels : Nat) : Prop :=
  ∀ (x : Entry) (s : List Handle), Moment.Upright ⟨x.id :: s, x.state⟩ →
    (∀ k, levels = k + 1 → ∀ q m',
      (x.body.program x.id).Visits k ⟨x.id :: s, x.state⟩ (some q) m' → π.allows m'.state q) →
    x.Steps π (enterWithin levels) s ∧
    ∀ k, levels = k + 1 → ∀ r m',
      (x.body.program x.id).Visits k ⟨x.id :: s, x.state⟩ r m' →
        Path π ⟨x.id :: s, x.state⟩ m'

/-- A program moves by steps, and its moments lie on a path. -/
def ProgramsStep (π : Policy) (levels : Nat) : Prop :=
  ∀ {α : Type} (p : Program α) (m : Moment), m.Upright →
    (∀ q m', p.Visits levels m (some q) m' → π.allows m'.state q) →
    Path π m ⟨m.stack, (p.runWith (enterWithin levels)).after m.state⟩ ∧
    ∀ r m', p.Visits levels m r m' → Path π m m'

/-- The step of the induction: if bodies of so many levels move by steps, then so do the programs
    that enter them. -/
theorem programsStep_of_bodies {levels : Nat} (hin : BodiesStep π levels) :
    ProgramsStep π levels := by
  intro α p
  induction p with
  | done a =>
    intro m hup _
    refine ⟨.refl, fun r m' hv => ?_⟩
    cases hv
    exact .refl
  | ask q next ih =>
    intro m hup hall
    have hq : π.allows m.state q := hall q m .asks
    -- A body below the request has the requests of the run for its own.
    have hbody : ∀ x, Enters (enterWithin levels) (fun e => q.perform e) m.state x →
        Path π m ⟨x.id :: m.stack, x.state⟩ → _ := fun x hx hpx =>
      hin x m.stack (hpx.upright hup) fun k hk q' m' hv =>
        hall q' m' (by subst hk; exact .inside hx hv)
    have hfollows : Follows π (enterWithin levels) m.stack (fun e => q.perform e) m.state
        fun _ _ => True := Request.follows hup q hq
    obtain ⟨hreach, hends⟩ := hfollows fun x hx hpx _ => (hbody x hx hpx).1
    -- First the bodies that the request enters, then what follows on its answer.
    have hinside : ∀ x, Enters (enterWithin levels) (fun e => q.perform e) m.state x →
        Path π m ⟨x.id :: m.stack, x.state⟩ := by
      intro x hx
      rcases hreach x with ⟨-, hpx, -⟩ | hno
      · exact hpx
      · exact absurd hx (not_enters hno)
    have hrun := hends.path
    cases hr : q.perform (enterWithin levels) m.state with
    | ok a c =>
      rw [after_ok hr] at hrun
      obtain ⟨hp, hvisits⟩ := ih (.ok a) ⟨m.stack, c⟩ (hrun.upright hup) fun q' m' hv =>
        hall q' m' (.answered hr hv)
      refine ⟨?_, fun r m' hv => ?_⟩
      · unfold after at hp ⊢
        rw [runWith_answered hr]
        exact hrun.trans hp
      · cases hv with
        | asks => exact .refl
        | answered h hv => rw [hr] at h; cases h; exact hrun.trans (hvisits r m' hv)
        | refused h hv => rw [hr] at h; cases h
        | lost h hf => rw [hr] at h; cases h
        | inside hx hv =>
          exact (hinside _ hx).trans ((hbody _ hx (hinside _ hx)).2 _ rfl r m' hv)
    | error f c =>
      rw [after_error hr] at hrun
      by_cases hf : ∃ e, f = .refused e
      · obtain ⟨e, rfl⟩ := hf
        obtain ⟨hp, hvisits⟩ := ih (.error e) ⟨m.stack, c⟩ (hrun.upright hup) fun q' m' hv =>
          hall q' m' (.refused hr hv)
        refine ⟨?_, fun r m' hv => ?_⟩
        · unfold after at hp ⊢
          rw [runWith_refused hr]
          exact hrun.trans hp
        · cases hv with
          | asks => exact .refl
          | answered h hv => rw [hr] at h; cases h
          | refused h hv => rw [hr] at h; cases h; exact hrun.trans (hvisits r m' hv)
          | lost h hf => rw [hr] at h; cases h; exact absurd rfl (hf e)
          | inside hx hv =>
            exact (hinside _ hx).trans ((hbody _ hx (hinside _ hx)).2 _ rfl r m' hv)
      · have hlost : ∀ e, f ≠ .refused e := fun e he => hf ⟨e, he⟩
        refine ⟨?_, fun r m' hv => ?_⟩
        · rw [after_error (runWith_lost hr hlost)]; exact hrun
        · cases hv with
          | asks => exact .refl
          | answered h hv => rw [hr] at h; cases h
          | refused h hv => rw [hr] at h; cases h; exact absurd rfl (hlost _)
          | lost h hf => rw [hr] at h; cases h; exact hrun
          | inside hx hv =>
            exact (hinside _ hx).trans ((hbody _ hx (hinside _ hx)).2 _ rfl r m' hv)

/-- The induction on the levels. -/
theorem bodiesStep (levels : Nat) : BodiesStep π levels := by
  induction levels with
  | zero =>
    intro x s _ _
    refine ⟨?_, fun k hk => absurd hk (by omega)⟩
    unfold Entry.Steps
    rw [after_error (show enterWithin 0 x.body x.id x.state = .error .tooDeep x.state from rfl)]
  | succ levels ih =>
    intro x s hup hall
    obtain ⟨hp, hvisits⟩ := programsStep_of_bodies ih (x.body.program x.id) ⟨x.id :: s, x.state⟩
      hup (hall levels rfl)
    refine ⟨?_, fun k hk r m' hv => ?_⟩
    · unfold Entry.Steps
      rw [after_enterWithin]
      exact hp
    · obtain rfl : levels = k := by omega
      exact hvisits r m' hv

/-- **The moments of a run lie on paths of steps**, and so does its end, if all requests of the
    run are allowed. -/
theorem Program.path_of_visits (levels : Nat) : ProgramsStep π levels :=
  programsStep_of_bodies (bodiesStep levels)

/-! ## Runs of which only the requests in their text are known -/

/-- Whatever a request does, it moves by steps and enters bodies of the circuit only. -/
theorem Request.follows_any (levels : Nat) (q : Request) {m : Moment} (hup : m.Upright) :
    Path .any m ⟨m.stack, (q.perform (enterWithin levels)).after m.state⟩ ∧
    ∀ x, Enters (enterWithin levels) (fun e => q.perform e) m.state x →
      Path .any m ⟨x.id :: m.stack, x.state⟩ ∧ x.Starts m.state.circuit := by
  have hfollows : Follows .any (enterWithin levels) m.stack (fun e => q.perform e) m.state
      fun _ _ => True := Request.follows hup q trivial
  obtain ⟨hreach, hends⟩ := hfollows
    fun x _ hpx _ => (bodiesStep levels x m.stack (hpx.upright hup) fun _ _ _ _ _ => trivial).1
  refine ⟨hends.path, fun x hx => ?_⟩
  rcases hreach x with ⟨-, hpx, hrx⟩ | hno
  · exact ⟨hpx, hrx⟩
  · exact absurd hx (not_enters hno)

/-- If the program and all bodies of its circuit make only certain requests, then so does the
    whole run. -/
theorem Program.Visits.only {ok : Request → Prop} {α : Type} {levels : Nat} {p : Program α}
    {m m' : Moment} {r : Option Request} (hv : p.Visits levels m r m') (hup : m.Upright)
    (hc : m.state.circuit.Only ok) (hp : p.Only ok) : ∀ q, r = some q → ok q := by
  induction hv with
  | done | lost => intro q hq; cases hq
  | asks => intro q hq; cases hq; exact hp.1
  | @answered _ levels q _ _ _ _ _ _ h _ ih =>
    have hpath := (Request.follows_any levels q hup).1
    rw [after_ok h] at hpath
    exact ih (hpath.upright hup) (hpath.circuit_eq.1 ▸ hc) (hp.2 _)
  | @refused _ levels q _ _ _ _ _ _ h _ ih =>
    have hpath := (Request.follows_any levels q hup).1
    rw [after_error h] at hpath
    exact ih (hpath.upright hup) (hpath.circuit_eq.1 ▸ hc) (hp.2 _)
  | inside h _ ih =>
    obtain ⟨hpath, hbody⟩ := (Request.follows_any _ _ hup).2 _ h
    exact ih (hpath.upright hup) (hpath.circuit_eq.1 ▸ hc) (hc _ hbody.runs _)

/-- A request that does more than count an input. -/
def Request.NoCount (q : Request) : Prop := ∀ id, q ≠ .countInput id

/-- A request that neither counts an input by hand nor runs the main component by hand. -/
def Request.Ordinary (q : Request) : Prop := (∀ id, q ≠ .countInput id) ∧ q ≠ .runMain

theorem Request.Ordinary.noCount {q : Request} (h : q.Ordinary) : q.NoCount := h.1

/-- If more requests are allowed, a program makes no others. -/
theorem Program.Only.mono {ok ok' : Request → Prop} (h : ∀ q, ok q → ok' q) {α : Type}
    {p : Program α} (hp : p.Only ok) : p.Only ok' := by
  induction p with
  | done => trivial
  | ask q next ih => exact ⟨h q hp.1, fun answer => ih answer (hp.2 answer)⟩

theorem Circuit.Only.mono {ok ok' : Request → Prop} (h : ∀ q, ok q → ok' q) {circuit : Circuit}
    (hc : circuit.Only ok) : circuit.Only ok' := fun body hb id => (hc body hb id).mono h

/-- The first moment of a computation is upright: no body runs. -/
theorem Moment.upright_start (circuit : Circuit) (config : Config) :
    (Moment.start circuit config).Upright := rfl

/-- In a circuit whose bodies count no input by hand, no action does. -/
theorem Follows.noCount {α : Type} {levels : Nat} {s : List Handle} {c : Computation}
    {act : Enter → Action α} {Q : α → Computation → Prop}
    (h : Follows .noCount (enterWithin levels) s act c Q) (hup : Moment.Upright ⟨s, c⟩)
    (hc : c.circuit.Only Request.NoCount) :
    (∀ x, (Enters (enterWithin levels) act c x ∧ Path .noCount ⟨s, c⟩ ⟨x.id :: s, x.state⟩ ∧
        x.Starts c.circuit) ∨
      ∀ f c', act ((enterWithin levels).failing x f c') c = act (enterWithin levels) c) ∧
    Ends .noCount s c Q (act (enterWithin levels) c) :=
  h fun x _ hpx hrx => (bodiesStep levels x s (hpx.upright hup) fun _ _ q _ hv =>
    hv.only (hpx.upright hup) (hpx.circuit_eq.1 ▸ hc) (hc _ hrx.runs _) q rfl).1

/-- A run in which only allowed requests are made moves by the steps of its policy. -/
theorem Program.Visits.path {ok : Request → Prop} (hπ : ∀ c q, ok q → π.allows c q) {α : Type}
    {levels : Nat} {p : Program α} {circuit : Circuit} {config : Config} {m : Moment}
    {r : Option Request} (hv : p.Visits levels (.start circuit config) r m)
    (hc : circuit.Only ok) (hp : p.Only ok) : Path π (.start circuit config) m :=
  (Program.path_of_visits levels p _ (Moment.upright_start circuit config) fun q _ hq =>
    hπ _ q (hq.only (Moment.upright_start circuit config) hc hp q rfl)).2 r m hv

/-- Whatever a program asks for, its run is a path of steps. -/
theorem Program.Visits.path_any {α : Type} {levels : Nat} {p : Program α} {m m' : Moment}
    {r : Option Request} (hv : p.Visits levels m r m') (hup : m.Upright) : Path .any m m' :=
  (Program.path_of_visits levels p m hup fun _ _ _ => trivial).2 r m' hv

/-- What a program visits is reached by steps in which no input is counted without being
    written. -/
theorem Program.Visits.path_noCount {α : Type} {levels : Nat} {p : Program α}
    {circuit : Circuit} {config : Config} {m : Moment} {r : Option Request}
    (hv : p.Visits levels (.start circuit config) r m) (hc : circuit.Only Request.NoCount)
    (hp : p.Only Request.NoCount) : Path .noCount (.start circuit config) m :=
  hv.path (fun _ _ hq => hq) hc hp

/-! ## A small circuit

  The main component takes two inputs and then creates a child that takes none. -/

/-- Create the child, in the only slot and above the block of the main component. -/
def relayBody : Body := fun id => Procedure.createChild id 0 ⟨1⟩ ⟨1⟩ 4 "main.pulse"

/-- Write the only signal of the child. -/
def pulseBody : Body := fun _ => Procedure.setSignal 4 1

/-- A main component with two inputs and one slot, and a child without inputs. -/
def relayDescription : CircuitDescription where
  name := "relay"
  totalSignals := 5
  totalComponents := 2
  templates := ⟨#[some ⟨⟨"Relay", 1, 2, 3, 1⟩, relayBody, none⟩,
    some ⟨⟨"Pulse", 1, 0, 1, 0⟩, pulseBody, none⟩]⟩
  inputs := ⟨[⟨"in", 0, 2⟩]⟩

def relay : Circuit := ⟨relayDescription, ⟨"Relay", 1, 2, 3, 1⟩⟩

theorem accept_relay : relayDescription.accept = .ok relay := rfl

/-- The bodies of the small circuit write no inputs and call no operation of the scheduler but to
    create a child. -/
theorem relay_bodies : relay.Only fun q =>
    (∃ parent slot id t start label, q = .createChild parent slot id t start label) ∨
      ∃ i v, q = .setSignal i v := by
  rintro body ⟨⟨i⟩, prefer, h⟩ id
  match i, h with
  | 0, h =>
    cases prefer <;> cases h <;>
      exact ⟨.inl ⟨_, _, _, _, _, _, rfl⟩, fun answer => by cases answer <;> trivial⟩
  | 1, h =>
    cases prefer <;> cases h <;>
      exact ⟨.inr ⟨_, _, rfl⟩, fun answer => by cases answer <;> trivial⟩
  | i + 2, h => cases h

/-- The bodies of the small circuit neither count an input by hand nor run the main component by
    hand. -/
theorem relay_only : relay.Only Request.Ordinary := by
  refine relay_bodies.mono fun q hq => ?_
  rcases hq with ⟨_, _, _, _, _, _, rfl⟩ | ⟨_, _, rfl⟩ <;> exact ⟨fun _ => by simp, by simp⟩

/-- The main component of the small circuit, created and fed by hand. -/
def relayProgram : Program Unit :=
  .ask (.create ⟨0⟩ ⟨0⟩ 1 "main" none) fun _ =>
  .ask (.writeInput ⟨0⟩ 1 5) fun _ =>
  .ask (.writeInput ⟨0⟩ 2 7) fun _ => .done ()

theorem relayProgram_only : relayProgram.Only Request.Ordinary :=
  ⟨⟨fun _ => by simp, by simp⟩, fun _ => ⟨⟨fun _ => by simp, by simp⟩, fun _ =>
    ⟨⟨fun _ => by simp, by simp⟩, fun _ => trivial⟩⟩⟩

/-- The main component is created. -/
def relayCreated : Computation :=
  (create (enterWithin 2) ⟨0⟩ ⟨0⟩ 1 "main" none).after (.start relay .diagnostic)

/-- The main component has one of its inputs. -/
def relayWaiting : Computation := (writeInput (enterWithin 2) ⟨0⟩ 1 5).after relayCreated

/-- The second input is there, and the body of the main component begins. -/
def relayInside : Computation := ((relayWaiting.wrote 3 7).arrived ⟨0⟩ 3 0).begun ⟨0⟩

/-- The body has returned, and the child that it created is not released. -/
def relayOwned : Computation := (writeInput (enterWithin 2) ⟨0⟩ 2 7).after relayWaiting

/-- The last write enters the body. -/
theorem relay_enters : Enters (enterWithin 2) (fun e => (Request.writeInput ⟨0⟩ 2 7).perform e)
    relayWaiting ⟨relayBody, ⟨0⟩, relayInside⟩ :=
  .of_run fun _ => (writeInput_eq rfl rfl).trans ((arrive_last rfl rfl).trans (trigger_eq rfl))

/-- In the body of the main component, just before the child is created. -/
theorem relay_visits : relayProgram.Visits 2 (.start relay .diagnostic)
    (some (.createChild ⟨0⟩ 0 ⟨1⟩ ⟨1⟩ 4 "main.pulse")) ⟨[⟨0⟩], relayInside⟩ :=
  .answered (c := relayCreated) rfl
    (.answered (c := relayWaiting) rfl (.inside relay_enters .asks))

end CircuitWitness
