import CircuitWitness.Proofs.Step
/-
  Every run is a path of steps.

  `Follows` is what has to be known about an action: given that the bodies it enters move by steps,
  so does the action, the entries lie on its path, and nothing but these entries has an influence
  on it.  There is one rule for actions that enter no body, one for doing a thing and then another,
  and one for starting a body.  Each request follows from these (`Request.follows`), and so does
  each program, by induction on the levels of bodies below it (`Program.path_of_visits`).
-/

namespace CircuitWitness

open CircuitWitness.Action

variable {π : Policy} {enter : Enter} {s : List Handle} {α β : Type} {c : Computation}

/-- The body that is entered moves by steps and comes back to where it stood on the stack. -/
def Entry.Steps (π : Policy) (enter : Enter) (s : List Handle) (x : Entry) : Prop :=
  Path π ⟨x.id :: s, x.state⟩ ⟨x.id :: s, (enter x.body x.id).after x.state⟩

/-- The entry is made by the start of a component, and the body is one of the circuit's. -/
structure Entry.Starts (circuit : Circuit) (x : Entry) : Prop where
  runs : circuit.Runs x.body
  begun : ∃ c : Computation, x.state = c.begun x.id

/-- How an action ends that moves by steps: there is a path to its last state, and its result has
    some property. -/
def Ends (π : Policy) (s : List Handle) (c : Computation) (Q : α → Computation → Prop) :
    EStateM.Result Fault Computation α → Prop
  | .ok a c' => Path π ⟨s, c⟩ ⟨s, c'⟩ ∧ Q a c'
  | .error _ c' => Path π ⟨s, c⟩ ⟨s, c'⟩

theorem Ends.path {act : Action α} {Q : α → Computation → Prop} (h : Ends π s c Q (act c)) :
    Path π ⟨s, c⟩ ⟨s, act.after c⟩ := by
  unfold after
  cases hr : act c with
  | ok a c' => rw [hr] at h; exact h.1
  | error f c' => rw [hr] at h; exact h

/-- An action moves by steps if the bodies that it enters do. -/
def Follows (π : Policy) (enter : Enter) (s : List Handle) (act : Enter → Action α)
    (c : Computation) (Q : α → Computation → Prop) : Prop :=
  (∀ x, Enters enter act c x → Path π ⟨s, c⟩ ⟨x.id :: s, x.state⟩ → x.Starts c.circuit →
    x.Steps π enter s) →
    (∀ x, (Enters enter act c x ∧ Path π ⟨s, c⟩ ⟨x.id :: s, x.state⟩ ∧ x.Starts c.circuit) ∨
      ∀ f c', act (enter.failing x f c') c = act enter c) ∧
    Ends π s c Q (act enter c)

/-! ## The rules -/

/-- Nothing that has no influence is entered. -/
theorem not_enters {act : Enter → Action α} {x : Entry}
    (h : ∀ f c', act (enter.failing x f c') c = act enter c) : ¬ Enters enter act c x := by
  intro hx
  -- The action would fail in two ways at once.
  obtain ⟨s₁, h₁⟩ := hx .outOfRange c
  obtain ⟨s₂, h₂⟩ := hx .tooDeep c
  rw [h] at h₁ h₂
  rw [h₁] at h₂
  cases h₂

/-- Starting a body enters it. -/
theorem Enters.of_run {act : Enter → Action Unit} {c₁ : Computation} {id : Handle} {body : Body}
    (hrun : ∀ e, act e c = runBody e body id c₁) :
    Enters enter act c ⟨body, id, c₁.begun id⟩ := by
  intro f t
  have he := enter.failing_self ⟨body, id, c₁.begun id⟩ f t
  exact ⟨t.left c₁.active, by rw [hrun]; unfold runBody; rw [he]⟩

/-- An entry of the first of two actions is one of both. -/
theorem Enters.left {x : Enter → Action α} {f : α → Enter → Action β} {y : Entry}
    (hy : Enters enter x c y) : Enters enter (fun e => x e >>= fun a => f a e) c y := by
  intro g t
  obtain ⟨t', ht'⟩ := hy g t
  exact ⟨t', bind_error ht'⟩

/-- An entry of the second of two actions is one of both; if the first one came to it before,
    it is one of both all the more. -/
theorem Enters.right {x : Enter → Action α} {f : α → Enter → Action β} {y : Entry} {a : α}
    {c' : Computation} (hr : x enter c = .ok a c')
    (hreach : Enters enter x c y ∨ ∀ g t, x (enter.failing y g t) c = x enter c)
    (hy : Enters enter (f a) c' y) : Enters enter (fun e => x e >>= fun a => f a e) c y := by
  rcases hreach with hy' | hno
  · exact hy'.left
  · intro g t
    obtain ⟨t', ht'⟩ := hy g t
    exact ⟨t', (bind_ok ((hno g t).trans hr)).trans ht'⟩

/-- An action that enters no body. -/
theorem Follows.still {act : Enter → Action α} {Q : α → Computation → Prop}
    {res : EStateM.Result Fault Computation α} (hres : ∀ e, act e c = res)
    (hends : Ends π s c Q res) : Follows π enter s act c Q :=
  fun _ => ⟨fun _ => .inr fun _ _ => by rw [hres, hres], by rw [hres]; exact hends⟩

/-- First some steps, and then an action. -/
theorem Follows.step {act act' : Enter → Action α} {Q : α → Computation → Prop}
    {c' : Computation} (hact : ∀ e, act e c = act' e c') (hp : Path π ⟨s, c⟩ ⟨s, c'⟩)
    (h : Follows π enter s act' c' Q) : Follows π enter s act c Q := by
  intro hN
  have hc : c'.circuit = c.circuit := hp.circuit_eq.1
  obtain ⟨hreach, hends⟩ := h fun x hx hpx hrx =>
    hN x (fun f t => by rw [hact]; exact hx f t) (hp.trans hpx) (hc ▸ hrx)
  refine ⟨fun x => ?_, ?_⟩
  · rcases hreach x with ⟨hx, hpx, hrx⟩ | hx
    · exact .inl ⟨fun f t => by rw [hact]; exact hx f t, hp.trans hpx, hc ▸ hrx⟩
    · exact .inr fun f t => by rw [hact, hact]; exact hx f t
  · rw [hact]
    cases hr : act' enter c' with
    | ok a d => rw [hr] at hends; exact ⟨hp.trans hends.1, hends.2⟩
    | error f d => rw [hr] at hends; exact hp.trans hends

/-- First one action, and then another that depends on its result. -/
theorem Follows.bind {x : Enter → Action α} {f : α → Enter → Action β}
    {Q : α → Computation → Prop} {R : β → Computation → Prop} (hx : Follows π enter s x c Q)
    (hf : ∀ a c', Path π ⟨s, c⟩ ⟨s, c'⟩ → Q a c' → Follows π enter s (f a) c' R) :
    Follows π enter s (fun e => x e >>= fun a => f a e) c R := by
  intro hN
  obtain ⟨hreach, hends⟩ := hx fun y hy => hN y hy.left
  cases hr : x enter c with
  | error g d =>
    rw [hr] at hends
    refine ⟨fun y => ?_, ?_⟩
    · rcases hreach y with ⟨hy, hpy, hry⟩ | hy
      · exact .inl ⟨hy.left, hpy, hry⟩
      · refine .inr fun g' t => ?_
        have he : x (enter.failing y g' t) c = .error g d := by rw [hy, hr]
        exact (bind_error he).trans (bind_error hr).symm
    · show Ends π s c R ((x enter >>= fun a => f a enter) c)
      rw [bind_error hr]; exact hends
  | ok a c' =>
    rw [hr] at hends
    obtain ⟨hp, hq⟩ := hends
    have hgo : ∀ e, x e c = .ok a c' → (x e >>= fun a => f a e) c = f a e c' :=
      fun _ he => bind_ok he
    -- What the second action comes to, both come to.
    have hlift : ∀ y, Enters enter (f a) c' y →
        Enters enter (fun e => x e >>= fun a => f a e) c y := fun y hy =>
      .right hr ((hreach y).imp_left And.left) hy
    have hc : c'.circuit = c.circuit := hp.circuit_eq.1
    obtain ⟨hreach', hends'⟩ := hf a c' hp hq fun y hy hpy hry =>
      hN y (hlift y hy) (hp.trans hpy) (hc ▸ hry)
    refine ⟨fun y => ?_, ?_⟩
    · rcases hreach y with ⟨hy, hpy, hry⟩ | hy
      · exact .inl ⟨hy.left, hpy, hry⟩
      · rcases hreach' y with ⟨hy', hpy, hry⟩ | hy'
        · exact .inl ⟨hlift y hy', hp.trans hpy, hc ▸ hry⟩
        · refine .inr fun g t => ?_
          exact (hgo _ ((hy g t).trans hr)).trans ((hy' g t).trans (hgo _ hr).symm)
    · show Ends π s c R ((x enter >>= fun a => f a enter) c)
      rw [hgo _ hr]
      cases hr' : f a enter c' with
      | ok b d => rw [hr'] at hends'; exact ⟨hp.trans hends'.1, hends'.2⟩
      | error g d => rw [hr'] at hends'; exact hp.trans hends'

theorem Runs_of_startable {id : Handle} {body : Body} (h : c.startable id = .ok body) :
    c.circuit.Runs body := by
  obtain ⟨r, -, -, -, hb⟩ := of_startable h
  exact ⟨_, _, hb⟩

/-- An action that starts a body, where counting the last input and starting are one step. -/
theorem Follows.run {act : Enter → Action Unit} {Q : Unit → Computation → Prop}
    {c₁ : Computation} {id : Handle} {body : Body} (hact : ∀ e, act e c = trigger e id c₁)
    (hb : c₁.startable id = .ok body) (hs : Step π ⟨s, c⟩ ⟨id :: s, c₁.begun id⟩)
    (hup : c₁.active = s.head?)
    (hQ : ∀ c', Path π ⟨s, c⟩ ⟨s, c'⟩ → Path π ⟨id :: s, c₁.begun id⟩ ⟨s, c'⟩ → Q () c') :
    Follows π enter s act c Q := by
  intro hN
  have hrun : ∀ e, act e c = runBody e body id c₁ := fun e => (hact e).trans (trigger_eq hb)
  have hx : Enters enter act c ⟨body, id, c₁.begun id⟩ := .of_run hrun
  have hcirc : c₁.circuit = c.circuit := hs.circuit_eq.1
  have hstarts : (⟨body, id, c₁.begun id⟩ : Entry).Starts c.circuit :=
    ⟨hcirc ▸ Runs_of_startable hb, c₁, rfl⟩
  -- The body is entered right after the step, and no other entry has an influence.
  have hin := hN _ hx (.single hs) hstarts
  refine ⟨fun y => ?_, ?_⟩
  · by_cases hy : y = ⟨body, id, c₁.begun id⟩
    · subst hy
      exact .inl ⟨hx, .single hs, hstarts⟩
    · refine .inr fun f t => ?_
      rw [hrun, hrun]
      unfold runBody
      rw [enter.failing_of_ne (Ne.symm hy)]
  · rw [hrun]
    unfold runBody
    unfold Entry.Steps at hin
    cases hr : enter body id (c₁.begun id) with
    | ok u d =>
      rw [after_ok hr] at hin
      have hfin : Step π ⟨id :: s, d⟩ ⟨s, d.ended id c₁.active⟩ := hup ▸ .finish
      have hp := hin.tail hfin
      exact ⟨.head hs hp, hQ _ (.head hs hp) hp⟩
    | error f d =>
      rw [after_error hr] at hin
      have hfin : Step π ⟨id :: s, d⟩ ⟨s, d.left c₁.active⟩ := hup ▸ .leave
      exact .head hs (hin.tail hfin)

end CircuitWitness
