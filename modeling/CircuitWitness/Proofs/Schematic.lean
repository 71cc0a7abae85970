import CircuitWitness.Proofs.Brackets
/-
  How actions treat the bodies that they enter.

  An action of the engine is given what it means to enter a body, and it does two things with that:
  it starts components, one after another, and it goes on after a body returned and gives up after
  one that failed.  `Schematic` says that an action is of this kind.  There are three forms: an
  action that neither starts nor ends a body, the start of a component, and two actions in a row.
  All requests are of this kind (`Request.schematic`, in `Proofs/Woven`).

  What follows is independent of what the action is for:

  * the bodies that are entered determine what it does (`Schematic.congr`);
  * it fails as it fails by itself, after bodies that returned, or as a body that it entered
    (`Schematic.outcome`);
  * if the bodies that return leave nothing open, neither does the action, and an entered body that
    fails leaves open what it left open itself and its own component (`Schematic.opens_ok`,
    `Schematic.opens_own`, `Schematic.opens_passed`).
-/

namespace CircuitWitness

open CircuitWitness.Action

variable {enter enter' : Enter} {α β : Type} {c c' : Computation}

/-- An action that neither starts nor ends a body: it leaves nothing open, takes no component back
    to its first stage, and does not fail for want of levels. -/
structure Action.Quiet (act : Action α) : Prop where
  opens : ∀ c : Computation, c.Opens (act.after c) []
  active : ∀ c : Computation, (act.after c).active = c.active
  started : ∀ (c : Computation) (id : Handle), c.Started id → (act.after c).Started id
  shallow : ∀ c c' : Computation, act c ≠ .error .tooDeep c'

/-- An action that starts components and goes on after bodies that return. -/
inductive Schematic : {α : Type} → (Enter → Action α) → Prop
  | quiet {α : Type} {act : Action α} (h : Action.Quiet act) : Schematic fun _ => act
  | trigger (id : Handle) : Schematic fun enter => trigger enter id
  | bind {α β : Type} {x : Enter → Action α} {f : α → Enter → Action β} (hx : Schematic x)
      (hf : ∀ a, Schematic (f a)) : Schematic fun enter => x enter >>= fun a => f a enter

/-! ## Which bodies are entered -/

/-- The entered body returns. -/
def Entry.Returns (enter : Enter) (x : Entry) (c : Computation) : Prop :=
  enter x.body x.id x.state = .ok () c

/-- The entered body fails. -/
def Entry.Fails (enter : Enter) (x : Entry) (f : Fault) (c : Computation) : Prop :=
  enter x.body x.id x.state = .error f c

/-- The bodies that an action enters determine what it does. -/
def Determined (act : Enter → Action α) : Prop :=
  ∀ enter enter' c, (∀ x, Enters enter act c x →
    enter x.body x.id x.state = enter' x.body x.id x.state) → act enter c = act enter' c

/-- What is not entered has no influence. -/
theorem Determined.failing {act : Enter → Action α} (h : Determined act) {x : Entry}
    (hx : ¬ Enters enter act c x) (f : Fault) (s : Computation) :
    act (enter.failing x f s) c = act enter c := by
  refine (h enter _ c fun y hy => ?_).symm
  have hne : y ≠ x := fun he => hx (he ▸ hy)
  exact (enter.failing_of_ne hne f s).symm

/-- Two actions in a row enter what the first one enters, and what the second one enters after the
    first has succeeded. -/
theorem Determined.enters_bind {x : Enter → Action α} {f : α → Enter → Action β}
    (hx : Determined x) {y : Entry} :
    Enters enter (fun enter => x enter >>= fun a => f a enter) c y ↔
      Enters enter x c y ∨ ∃ a c', x enter c = .ok a c' ∧ Enters enter (f a) c' y := by
  constructor
  · intro hy
    by_cases hxy : Enters enter x c y
    · exact .inl hxy
    · -- The first action is what it is without the entry, so the second one makes it.
      cases hr : x enter c with
      | ok a c' =>
        refine .inr ⟨a, c', rfl, fun g s => ?_⟩
        obtain ⟨s', hs'⟩ := hy g s
        exact ⟨s', (bind_ok ((hx.failing hxy g s).trans hr)).symm.trans hs'⟩
      | error g d =>
        refine absurd hy (not_enters fun g' s => ?_)
        exact (bind_error ((hx.failing hxy g' s).trans hr)).trans (bind_error hr).symm
  · rintro (hxy | ⟨a, c', hr, hy⟩)
    · exact hxy.left
    · by_cases hxy : Enters enter x c y
      · exact hxy.left
      · exact .right hr (.inr (hx.failing hxy)) hy

theorem not_enters_quiet (act : Action α) (x : Entry) : ¬ Enters enter (fun _ => act) c x :=
  not_enters fun _ _ => rfl

/-- A start enters the body of its component, if the component may start. -/
theorem enters_trigger {id : Handle} {x : Entry} :
    Enters enter (fun enter => trigger enter id) c x ↔
      ∃ body, c.startable id = .ok body ∧ x = ⟨body, id, c.begun id⟩ := by
  constructor
  · intro hx
    cases hb : c.startable id with
    | error e =>
      exact absurd hx (not_enters fun f s => by rw [trigger_refused hb, trigger_refused hb])
    | ok body =>
      refine ⟨body, rfl, ?_⟩
      by_contra hne
      refine not_enters (fun f s => ?_) hx
      rw [trigger_eq hb, trigger_eq hb]
      unfold runBody
      rw [enter.failing_of_ne (Ne.symm hne)]
  · rintro ⟨body, hb, rfl⟩
    exact .of_run fun _ => trigger_eq hb

namespace Schematic

/-- **The bodies that are entered determine what an action does.** -/
theorem congr {act : Enter → Action α} (h : Schematic act) : Determined act := by
  induction h with
  | quiet => exact fun _ _ _ _ => rfl
  | trigger id =>
    intro enter enter' c hagree
    show Action.trigger enter id c = Action.trigger enter' id c
    cases hb : c.startable id with
    | error e => rw [trigger_refused hb, trigger_refused hb]
    | ok body =>
      have hin := hagree _ (enters_trigger.mpr ⟨body, hb, rfl⟩)
      rw [trigger_eq hb, trigger_eq hb]
      unfold runBody
      rw [hin]
  | @bind α β x f _ _ ihx ihf =>
    intro enter enter' c hagree
    have hfirst : x enter c = x enter' c := ihx enter enter' c fun y hy => hagree y hy.left
    show (x enter >>= fun a => f a enter) c = (x enter' >>= fun a => f a enter') c
    cases hr : x enter c with
    | error g d => rw [bind_error hr, bind_error (hfirst ▸ hr)]
    | ok a c' =>
      rw [bind_ok hr, bind_ok (hfirst ▸ hr)]
      exact ihf a enter enter' c' fun y hy =>
        hagree y (ihx.enters_bind.mpr (.inr ⟨a, c', hr, hy⟩))

/-- An action comes back to the body that was running before. -/
theorem active_eq {act : Enter → Action α} (h : Schematic act) (enter : Enter)
    (c : Computation) : ((act enter).after c).active = c.active := by
  induction h generalizing c with
  | quiet h => exact h.active c
  | trigger id =>
    show ((Action.trigger enter id).after c).active = c.active
    cases hb : c.startable id with
    | error e => rw [after_error (trigger_refused hb)]
    | ok body =>
      cases hr : enter body id (c.begun id) with
      | ok u d =>
        rw [after_ok ((trigger_eq hb).trans (runBody_ok hr))]
        rfl
      | error f d =>
        rw [after_error ((trigger_eq hb).trans (runBody_error hr))]
        rfl
  | @bind α β x f _ _ ihx ihf =>
    have hx := ihx c
    show ((x enter >>= fun a => f a enter).after c).active = c.active
    cases hr : x enter c with
    | error g d =>
      rw [after_error hr] at hx
      rw [after_error (bind_error hr)]
      exact hx
    | ok a c' =>
      rw [after_ok hr] at hx
      rw [after_bind hr, ihf a c']
      exact hx

/-- **How an action ends.**  If it succeeds, all bodies that it entered returned.  If it fails,
    either they did so too and it failed by itself, not for want of levels; or it failed as one of
    them did. -/
theorem outcome {act : Enter → Action α} (h : Schematic act) (enter : Enter) (c : Computation) :
    (∀ a c', act enter c = .ok a c' → ∀ x, Enters enter act c x → ∃ s, x.Returns enter s) ∧
    ∀ f c', act enter c = .error f c' →
      (f ≠ .tooDeep ∧ ∀ x, Enters enter act c x → ∃ s, x.Returns enter s) ∨
        ∃ x s, Enters enter act c x ∧ x.Fails enter f s := by
  induction h generalizing c with
  | quiet hq =>
    refine ⟨fun _ _ _ x hx => absurd hx (not_enters_quiet _ x), fun f c' hr => .inl ⟨?_, ?_⟩⟩
    · rintro rfl
      exact hq.shallow c c' hr
    · exact fun x hx => absurd hx (not_enters_quiet _ x)
  | trigger id =>
    cases hb : c.startable id with
    | error e =>
      have hno : ∀ x, ¬ Enters enter (fun enter => Action.trigger enter id) c x := by
        intro x hx
        obtain ⟨body, hb', -⟩ := enters_trigger.mp hx
        rw [hb] at hb'
        cases hb'
      refine ⟨fun _ _ _ x hx => absurd hx (hno x), fun f c' hr => .inl ⟨?_, ?_⟩⟩
      · have hrefused : Action.trigger enter id c = .error (.refused e) c := trigger_refused hb
        cases hrefused.symm.trans hr
        simp
      · exact fun x hx => absurd hx (hno x)
    | ok body =>
      have hx : Enters enter (fun enter => Action.trigger enter id) c ⟨body, id, c.begun id⟩ :=
        enters_trigger.mpr ⟨body, hb, rfl⟩
      cases hin : enter body id (c.begun id) with
      | ok u d =>
        have hrun := (trigger_eq hb).trans (runBody_ok hin)
        constructor
        · intro _ _ _ y hy
          obtain ⟨body', hb', rfl⟩ := enters_trigger.mp hy
          rw [hb] at hb'
          cases hb'
          exact ⟨d, hin⟩
        · intro f c' hr
          cases hrun.symm.trans hr
      | error g d =>
        have hrun := (trigger_eq hb).trans (runBody_error hin)
        constructor
        · intro a c' hr
          cases hrun.symm.trans hr
        · intro f c' hr
          cases hrun.symm.trans hr
          exact .inr ⟨_, d, hx, hin⟩
  | @bind α β x f hx _ ihx ihf =>
    have hdet := hx.congr
    obtain ⟨hxok, hxerr⟩ := ihx c
    cases hr : x enter c with
    | error g d =>
      -- The second action is not reached, so all entries are those of the first.
      have honly : ∀ y, Enters enter (fun enter => x enter >>= fun a => f a enter) c y →
          Enters enter x c y := by
        intro y hy
        rcases hdet.enters_bind.mp hy with hy | ⟨a, c', hr', -⟩
        · exact hy
        · rw [hr] at hr'
          cases hr'
      have hbind : (x enter >>= fun a => f a enter) c = .error g d := bind_error hr
      constructor
      · intro a c' hok
        cases hbind.symm.trans hok
      · intro g' c' herr
        cases hbind.symm.trans herr
        rcases hxerr g d hr with ⟨hshallow, hall⟩ | ⟨y, s, hy, hfail⟩
        · exact .inl ⟨hshallow, fun y hy => hall y (honly y hy)⟩
        · exact .inr ⟨y, s, hy.left, hfail⟩
    | ok a c₁ =>
      have hsplit : ∀ y, Enters enter (fun enter => x enter >>= fun a => f a enter) c y →
          Enters enter x c y ∨ Enters enter (f a) c₁ y := by
        intro y hy
        rcases hdet.enters_bind.mp hy with hy | ⟨a', c', hr', hy⟩
        · exact .inl hy
        · rw [hr] at hr'
          cases hr'
          exact .inr hy
      have hbind : (x enter >>= fun a => f a enter) c = f a enter c₁ := bind_ok hr
      obtain ⟨hfok, hferr⟩ := ihf a c₁
      constructor
      · intro b c' hok y hy
        exact (hsplit y hy).elim (hxok a c₁ hr y) (hfok b c' (hbind.symm.trans hok) y)
      · intro g c' herr
        rcases hferr g c' (hbind.symm.trans herr) with ⟨hshallow, hall⟩ | ⟨y, s, hy, hfail⟩
        · exact .inl ⟨hshallow, fun y hy => (hsplit y hy).elim (hxok a c₁ hr y) (hall y)⟩
        · exact .inr ⟨y, s, hdet.enters_bind.mpr (.inr ⟨a, c₁, hr, hy⟩), hfail⟩

/-- **What an action leaves open.**  Suppose that the bodies it enters leave nothing open if they
    return.  If it succeeds, or if it fails by itself, it leaves nothing open; if a body fails that
    it entered, it ends where the body ended, and it leaves open what the body left open and the
    body itself. -/
theorem opens {act : Enter → Action α} (h : Schematic act) (enter : Enter) (c : Computation)
    (hreturn : ∀ x s, Enters enter act c x → x.Returns enter s → x.state.Opens s []) :
    (∀ a c', act enter c = .ok a c' → c.Opens c' []) ∧
    ∀ f c', act enter c = .error f c' →
      ((∀ x, Enters enter act c x → ∃ s, x.Returns enter s) → c.Opens c' []) ∧
      ∀ x g s, Enters enter act c x → x.Fails enter g s → c' = s.left c.active ∧
        ∀ opened, x.state.Opens s opened → c.Opens c' (opened ++ [x.id]) := by
  induction h generalizing c with
  | quiet hq =>
    have hopens := hq.opens c
    refine ⟨fun a c' hr => ?_, fun f c' hr => ⟨fun _ => ?_, fun x _ _ hx => ?_⟩⟩
    · rwa [after_ok hr] at hopens
    · rwa [after_error hr] at hopens
    · exact absurd hx (not_enters_quiet _ x)
  | trigger id =>
    cases hb : c.startable id with
    | error e =>
      have hrefused : Action.trigger enter id c = .error (.refused e) c := trigger_refused hb
      refine ⟨fun a c' hr => ?_, fun f c' hr => ⟨fun _ => ?_, fun x _ _ hx => ?_⟩⟩
      · cases hrefused.symm.trans hr
      · cases hrefused.symm.trans hr
        exact .refl c
      · obtain ⟨body, hb', -⟩ := enters_trigger.mp hx
        rw [hb] at hb'
        cases hb'
    | ok body =>
      obtain ⟨r, hr, hs, -, -⟩ := of_startable hb
      have hnot : r.stage ≠ .running := by simp [hs]
      have hx : Enters enter (fun enter => Action.trigger enter id) c ⟨body, id, c.begun id⟩ :=
        enters_trigger.mpr ⟨body, hb, rfl⟩
      cases hin : enter body id (c.begun id) with
      | ok u d =>
        have hrun := (trigger_eq hb).trans (runBody_ok hin)
        refine ⟨fun a c' hok => ?_, fun f c' herr => ?_⟩
        · cases hrun.symm.trans hok
          exact (hreturn _ d hx hin).around hr hnot c.active
        · cases hrun.symm.trans herr
      | error g d =>
        have hrun := (trigger_eq hb).trans (runBody_error hin)
        refine ⟨fun a c' hok => ?_, fun f c' herr => ?_⟩
        · cases hrun.symm.trans hok
        · cases hrun.symm.trans herr
          refine ⟨fun hall => ?_, fun y g' s hy hfail => ?_⟩
          · obtain ⟨s, hs⟩ := hall _ hx
            cases hin.symm.trans hs
          · obtain ⟨body', hb', rfl⟩ := enters_trigger.mp hy
            rw [hb] at hb'
            cases hb'
            cases hin.symm.trans hfail
            exact ⟨rfl, fun opened ho => (ho.begin hr hnot).left c.active⟩
  | @bind α β x f hx hf ihx ihf =>
    have hdet := hx.congr
    obtain ⟨hxok, hxerr⟩ := ihx c fun y s hy => hreturn y s hy.left
    have hactive := hx.active_eq enter c
    cases hr : x enter c with
    | error g d =>
      have hbind : (x enter >>= fun a => f a enter) c = .error g d := bind_error hr
      refine ⟨fun a c' hok => ?_, fun g' c' herr => ?_⟩
      · cases hbind.symm.trans hok
      · cases hbind.symm.trans herr
        obtain ⟨hown, hpassed⟩ := hxerr g d hr
        refine ⟨fun hall => hown fun y hy => hall y hy.left, fun y g' s hy hfail => ?_⟩
        rcases hdet.enters_bind.mp hy with hy | ⟨a, c', hr', -⟩
        · exact hpassed y g' s hy hfail
        · cases hr.symm.trans hr'
    | ok a c₁ =>
      rw [after_ok hr] at hactive
      have hlift : ∀ y, Enters enter (f a) c₁ y →
          Enters enter (fun enter => x enter >>= fun a => f a enter) c y := fun y hy =>
        hdet.enters_bind.mpr (.inr ⟨a, c₁, hr, hy⟩)
      have hbind : (x enter >>= fun a => f a enter) c = f a enter c₁ := bind_ok hr
      have hfirst : c.Opens c₁ [] := hxok a c₁ hr
      obtain ⟨hfok, hferr⟩ := ihf a c₁ fun y s hy => hreturn y s (hlift y hy)
      refine ⟨fun b c' hok => hfirst.trans (hfok b c' (hbind.symm.trans hok)),
        fun g c' herr => ?_⟩
      obtain ⟨hown, hpassed⟩ := hferr g c' (hbind.symm.trans herr)
      refine ⟨fun hall => hfirst.trans (hown fun y hy => hall y (hlift y hy)),
        fun y g' s hy hfail => ?_⟩
      rcases hdet.enters_bind.mp hy with hy | ⟨a', c', hr', hy⟩
      · -- The first action succeeded, so no body that it entered has failed.
        obtain ⟨s', hs'⟩ := (hx.outcome enter c).1 a c₁ hr y hy
        cases hs'.symm.trans hfail
      · cases hr.symm.trans hr'
        obtain ⟨hc', hopens⟩ := hpassed y g' s hy hfail
        exact ⟨hactive ▸ hc', fun opened ho => hfirst.trans (hopens opened ho)⟩

/-- **Bodies begin for good.**  If the bodies that an action enters take no component back to its
    first stage, neither does the action, and after it the components of these bodies have
    begun. -/
theorem started {act : Enter → Action α} (h : Schematic act) (enter : Enter) (c : Computation)
    (hkeep : ∀ x, Enters enter act c x → ∀ id, x.state.Started id →
      ((enter x.body x.id).after x.state).Started id) :
    (∀ id, c.Started id → ((act enter).after c).Started id) ∧
    ∀ x, Enters enter act c x → ((act enter).after c).Started x.id := by
  induction h generalizing c with
  | quiet hq => exact ⟨hq.started c, fun x hx => absurd hx (not_enters_quiet _ x)⟩
  | trigger id =>
    cases hb : c.startable id with
    | error e =>
      have hrefused : Action.trigger enter id c = .error (.refused e) c := trigger_refused hb
      rw [show (Action.trigger enter id).after c = c from after_error hrefused]
      refine ⟨fun _ h => h, fun x hx => ?_⟩
      obtain ⟨body, hb', -⟩ := enters_trigger.mp hx
      rw [hb] at hb'
      cases hb'
    | ok body =>
      obtain ⟨r, hr, -⟩ := of_startable hb
      have hages := Registry.ages_advance c.registry id .running (by decide)
      have hx : Enters enter (fun enter => Action.trigger enter id) c ⟨body, id, c.begun id⟩ :=
        enters_trigger.mpr ⟨body, hb, rfl⟩
      have hself : (c.begun id).Started id :=
        ⟨_, (Registry.sets_modify hr _).self, fun h => by cases h⟩
      -- The way back to the caller leaves the component with a later stage.
      have hback : ∀ other, ((enter body id).after (c.begun id)).Started other →
          ((Action.trigger enter id).after c).Started other := by
        intro other hother
        cases hin : enter body id (c.begun id) with
        | ok u d =>
          rw [after_ok hin] at hother
          rw [after_ok ((trigger_eq hb).trans (runBody_ok hin))]
          exact hother.ages (Registry.ages_advance d.registry id .finished (by decide))
        | error f d =>
          rw [after_error hin] at hother
          rw [after_error ((trigger_eq hb).trans (runBody_error hin))]
          exact hother
      refine ⟨fun other h => hback other (hkeep _ hx other (h.ages hages)), fun y hy => ?_⟩
      obtain ⟨body', hb', rfl⟩ := enters_trigger.mp hy
      exact hback id (hkeep _ hx id hself)
  | @bind α β x f hx hf ihx ihf =>
    have hdet := hx.congr
    obtain ⟨hxkeep, hxenter⟩ := ihx c fun y hy => hkeep y hy.left
    show (∀ id, c.Started id → ((x enter >>= fun a => f a enter).after c).Started id) ∧
      ∀ y, Enters enter _ c y → ((x enter >>= fun a => f a enter).after c).Started y.id
    cases hr : x enter c with
    | error g d =>
      rw [after_error hr] at hxkeep hxenter
      rw [after_error (bind_error hr)]
      refine ⟨hxkeep, fun y hy => ?_⟩
      rcases hdet.enters_bind.mp hy with hy | ⟨a, c', hr', -⟩
      · exact hxenter y hy
      · cases hr.symm.trans hr'
    | ok a c₁ =>
      rw [after_ok hr] at hxkeep hxenter
      rw [after_bind hr]
      obtain ⟨hfkeep, hfenter⟩ := ihf a c₁ fun y hy =>
        hkeep y (hdet.enters_bind.mpr (.inr ⟨a, c₁, hr, hy⟩))
      refine ⟨fun id h => hfkeep id (hxkeep id h), fun y hy => ?_⟩
      rcases hdet.enters_bind.mp hy with hy | ⟨a', c', hr', hy⟩
      · exact hfkeep y.id (hxenter y hy)
      · cases hr.symm.trans hr'
        exact hfenter y hy

end Schematic

/-! ## Actions that are quiet or schematic -/

namespace Action.Quiet

/-- An action that changes nothing. -/
theorem of_same {act : Action α} (hc : ∀ c, act.after c = c)
    (hshallow : ∀ c c', act c ≠ .error .tooDeep c') : Quiet act :=
  ⟨fun c => (hc c).symm ▸ .refl c, fun c => by rw [hc], fun c _ h => (hc c).symm ▸ h, hshallow⟩

theorem look (f : Computation → Except Refusal α) : Quiet (look f) := by
  refine of_same (fun c => after_look f) fun c c' hr => ?_
  cases h : f c with
  | ok a => cases (look_ok h).symm.trans hr
  | error e => cases (look_error h).symm.trans hr

theorem inRange (f : Computation → Option α) : Quiet (inRange f) := by
  refine of_same (fun c => after_inRange f) fun c c' hr => ?_
  cases h : f c with
  | some a => cases (inRange_some h).symm.trans hr
  | none => cases (inRange_none h).symm.trans hr

theorem get : Quiet get := of_same (fun _ => rfl) fun _ _ hr => by cases hr

/-- Something that is read off the state. -/
theorem reads (f : Computation → α) : Quiet (do return f (← MonadState.get) : Action α) :=
  of_same (fun _ => rfl) fun _ _ hr => by cases hr

/-- A change that leaves alone the stages and the running body, and adds no event. -/
theorem modify {g : Computation → Computation} (htrace : ∀ c, (g c).trace = c.trace)
    (hstage : ∀ c id, (g c).registry.stage? id = c.registry.stage? id)
    (hactive : ∀ c, (g c).active = c.active) : Quiet (modify g : Action Unit) := by
  refine ⟨fun c => ?_, hactive, fun c id h => ?_, fun c c' hr => by cases hr⟩
  · have hx : c.trace.Extends (g c).trace [] := by
      rw [htrace]
      exact Trace.extends_refl _
    refine .calm hx (by simp) fun id => ?_
    show (g c).registry.stage? id = _ ↔ _
    rw [hstage]
    exact Iff.rfl
  · rw [Computation.started_iff] at h ⊢
    show ∃ st, (g c).registry.stage? id = some st ∧ st ≠ .created
    rw [hstage]
    exact h

/-- An event that neither starts nor ends a body. -/
theorem record {e : Event} (he : ∀ outer, e.nest outer = some outer) : Quiet (record e) := by
  refine ⟨fun c => ?_, fun _ => rfl, fun _ _ h => h, fun c c' hr => by cases hr⟩
  refine .calm (Trace.extends_record c.trace e) (fun e' he' => ?_) fun _ => Iff.rfl
  rw [List.mem_singleton.mp he']
  exact he

/-- A change of a record that leaves its stage alone. -/
theorem modifyComponent (id : Handle) {f : Component → Component}
    (hf : ∀ r, (f r).stage = r.stage) : Quiet (modifyComponent id f) := by
  refine modify (fun _ => rfl) (fun c other => ?_) fun _ => rfl
  show (c.registry.modify id f).stage? other = _
  unfold Registry.stage?
  rw [Registry.get?_modify]
  by_cases he : id = other
  · subst he
    rw [if_pos rfl, Option.map_map]
    exact congrArg (fun g => (c.registry.get? id).map g) (funext hf)
  · rw [if_neg he]

/-- A new component is not running. -/
theorem enroll (id : Handle) {r : Component} (hs : r.stage ≠ .running) : Quiet (enroll id r) := by
  have hact : ∀ c : Computation, (∃ reg, c.registry.create id r = .ok reg ∧
      Action.enroll id r c = .ok () { c with registry := reg }) ∨
      ∃ d, Action.enroll id r c = .error (.refused (c.defect id d)) c := by
    intro c
    unfold Action.enroll
    cases h : c.registry.create id r with
    | ok reg => exact .inl ⟨reg, rfl, rfl⟩
    | error d => exact .inr ⟨d, rfl⟩
  refine ⟨fun c => ?_, fun c => ?_, fun c other h => ?_, fun c c' hr => ?_⟩
  · rcases hact c with ⟨reg, hreg, hr⟩ | ⟨d, hr⟩
    · rw [after_ok hr]
      refine .calm (Trace.extends_refl _) (by simp) fun other => ?_
      have hfree := (Registry.create_ok hreg).1
      show reg.stage? other = _ ↔ c.registry.stage? other = _
      rw [Computation.stage?_sets (Registry.sets_create hreg)]
      by_cases he : id = other
      · subst he
        simp [Registry.stage?, hfree, hs]
      · rw [if_neg he]
    · rw [after_error hr]
      exact .refl c
  · rcases hact c with ⟨reg, -, hr⟩ | ⟨d, hr⟩
    · rw [after_ok hr]
    · rw [after_error hr]
  · rcases hact c with ⟨reg, hreg, hr⟩ | ⟨d, hr⟩
    · rw [after_ok hr]
      exact h.ages (Registry.ages_create hreg)
    · rw [after_error hr]
      exact h
  · rcases hact c with ⟨reg, -, hr'⟩ | ⟨d, hr'⟩ <;> cases hr'.symm.trans hr

/-- A component is released after it has finished, so it was not running. -/
theorem release (child : Option Handle) : Quiet (release child) := by
  refine ⟨fun c => ?_, fun c => ?_, fun c other h => ?_, fun c c' hr => ?_⟩
  · rcases release_cases child c with ⟨e, hr⟩ | ⟨hr, -⟩ | ⟨id, r, -, hget, hs, hr⟩
    · rw [after_error hr]
      exact .refl c
    · rw [after_ok hr]
      exact .refl c
    · rw [after_ok hr]
      refine .calm (Trace.extends_record c.trace (.released id)) (fun e he outer => ?_)
        fun other => ?_
      · rw [List.mem_singleton.mp he]
        cases outer <;> rfl
      · have hsets := Registry.sets_modify hget fun r => { r with
          slots := if c.config.reclaim then #[] else r.slots, stage := .released }
        show (c.registry.modify id _).stage? other = _ ↔ c.registry.stage? other = _
        rw [Computation.stage?_sets hsets]
        by_cases he : id = other
        · subst he
          simp [Registry.stage?, hget, hs]
        · rw [if_neg he]
  · rcases release_cases child c with ⟨e, hr⟩ | ⟨hr, -⟩ | ⟨id, r, -, -, -, hr⟩
    · rw [after_error hr]
    · rw [after_ok hr]
    · rw [after_ok hr]
      rfl
  · rcases release_cases child c with ⟨e, hr⟩ | ⟨hr, -⟩ | ⟨id, r, -, -, -, hr⟩
    · rw [after_error hr]
      exact h
    · rw [after_ok hr]
      exact h
    · rw [after_ok hr]
      refine h.ages (Registry.ages_modify fun _ _ => ⟨rfl, rfl, Nat.le_refl _, fun _ => ?_⟩)
      simp
  · rcases release_cases child c with ⟨e, hr'⟩ | ⟨hr', -⟩ | ⟨id, r, -, -, -, hr'⟩ <;>
      cases hr'.symm.trans hr

end Action.Quiet

namespace Schematic

/-- One of two actions. -/
theorem ite {p : Prop} [Decidable p] {x y : Enter → Action α} (hx : Schematic x)
    (hy : Schematic y) : Schematic fun enter => if p then x enter else y enter := by
  by_cases h : p
  · simpa only [if_pos h] using hx
  · simpa only [if_neg h] using hy

theorem look (f : Computation → Except Refusal α) : Schematic fun _ => Action.look f :=
  .quiet (.look f)

theorem inRange (f : Computation → Option α) : Schematic fun _ => Action.inRange f :=
  .quiet (.inRange f)

theorem signal (i : Nat) : Schematic fun _ => Action.signal i := by
  refine .bind (.inRange _) fun written => .bind (.quiet (.record fun st => ?_)) fun _ =>
    .bind (.quiet .get) fun c => .ite (.look _) (.inRange _)
  cases st <;> rfl

theorem keepChild (parent : Handle) (slot : Nat) (child : Handle) :
    Schematic fun _ => Action.keepChild parent slot child :=
  .bind (.look _) fun _ => .ite (.look _) (.quiet (.modifyComponent _ fun _ => rfl))

end Schematic

end CircuitWitness
