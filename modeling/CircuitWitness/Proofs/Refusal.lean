import CircuitWitness.Proofs.Settled
/-
  What requests refuse for reasons of their own.

  A request may end with a refusal because a body that it entered ended so; then it only passes
  the refusal on.  All other refusals are its own.  Where the records are settled, the checks that
  guard the counters never refuse: no input is counted below zero, no body is begun twice or too
  early, and every component that exists has a template.  What is left of them is one check that
  is made before anything happens, whether the template of a component to be created exists.
-/

namespace CircuitWitness

open CircuitWitness.Action

/-- A refusal that says that a counter or a record is not as it should be. -/
def Refusal.Internal : Refusal → Prop
  | .graphDefect _ _ .counterUnderflow
  | .graphDefect _ _ (.alreadyTriggered _)
  | .graphDefect _ _ (.pendingInputs _)
  | .graphDefect _ _ (.unknownTemplate _) => True
  | _ => False

/-- An action fails with the refusal of a body that it entered. -/
def PassesOn {α : Type} (enter : Enter) (act : Enter → Action α) (c : Computation) (e : Refusal) :
    Prop :=
  ∃ x c', Enters enter act c x ∧ enter x.body x.id x.state = .error (.refused e) c'

/-- What an action refuses, and does not only pass on, has a property. -/
def Refuses {α : Type} (enter : Enter) (act : Enter → Action α) (c : Computation)
    (E : Refusal → Prop) : Prop :=
  ∀ e c', act enter c = .error (.refused e) c' → E e ∨ PassesOn enter act c e

namespace Refuses

variable {α β : Type} {enter : Enter} {c c' : Computation} {E : Refusal → Prop}

/-- An action that enters no body. -/
theorem still {act : Action α} (h : ∀ e c', act c = .error (.refused e) c' → E e) :
    Refuses enter (fun _ => act) c E := fun e c' he => .inl (h e c' he)

/-- An action whose whole result is known. -/
theorem of_eq {act : Enter → Action α} {res : EStateM.Result Fault Computation α}
    (hres : ∀ e, act e c = res) (h : ∀ e c', res = .error (.refused e) c' → E e) :
    Refuses enter act c E := fun e c' he => .inl (h e c' ((hres enter).symm.trans he))

/-- First something that does not depend on bodies, and then an action. -/
theorem step {act act' : Enter → Action α} (hact : ∀ e, act e c = act' e c')
    (h : Refuses enter act' c' E) : Refuses enter act c E := by
  intro e c₁ he
  rcases h e c₁ ((hact enter).symm.trans he) with hE | ⟨x, c₂, hx, hbody⟩
  · exact .inl hE
  · exact .inr ⟨x, c₂, fun f t => by rw [hact]; exact hx f t, hbody⟩

/-- Starting a body: there is nothing to refuse but what the body refuses. -/
theorem run {act : Enter → Action Unit} {c₁ : Computation} {id : Handle} {body : Body}
    (hact : ∀ e, act e c = trigger e id c₁) (hb : c₁.startable id = .ok body) :
    Refuses enter act c E := by
  have hrun : ∀ e, act e c = runBody e body id c₁ := fun e => (hact e).trans (trigger_eq hb)
  intro e c₂ he
  rw [hrun] at he
  unfold runBody at he
  split at he
  · cases he
  · rename_i f d hbody
    injection he with hf
    subst hf
    exact .inr ⟨⟨body, id, c₁.begun id⟩, d, .of_run hrun, hbody⟩

/-- First one action, and then another. -/
theorem bind {x : Enter → Action α} {f : α → Enter → Action β}
    (hreach : ∀ y, Enters enter x c y ∨ ∀ g t, x (enter.failing y g t) c = x enter c)
    (hx : Refuses enter x c E)
    (hf : ∀ a c', x enter c = .ok a c' → Refuses enter (f a) c' E) :
    Refuses enter (fun e => x e >>= fun a => f a e) c E := by
  intro e c₁ he
  have he : (x enter >>= fun a => f a enter) c = .error (.refused e) c₁ := he
  cases hr : x enter c with
  | error g d =>
    rw [bind_error hr] at he
    cases he
    rcases hx e _ hr with hE | ⟨y, c₂, hy, hbody⟩
    · exact .inl hE
    · exact .inr ⟨y, c₂, hy.left, hbody⟩
  | ok a d =>
    rw [bind_ok hr] at he
    rcases hf a d hr e c₁ he with hE | ⟨y, c₂, hy, hbody⟩
    · exact .inl hE
    · exact .inr ⟨y, c₂, .right hr (hreach y) hy, hbody⟩

/-- What is known of the refusals may be weakened. -/
theorem mono {act : Enter → Action α} {E' : Refusal → Prop} (h : Refuses enter act c E)
    (hE : ∀ e, E e → E' e) : Refuses enter act c E' :=
  fun e c' he => (h e c' he).imp_left (hE e)

end Refuses

/-! ## Actions that enter no body -/

section Still

variable {α : Type} {enter : Enter} {c : Computation}

/-- Nothing internal is refused. -/
abbrev Sound (enter : Enter) (act : Enter → Action α) (c : Computation) : Prop :=
  Refuses enter act c fun e => ¬ e.Internal

/-- A look is sound if nothing that it refuses is a check on counters. -/
theorem sound_look {f : Computation → Except Refusal α}
    (h : ∀ e, f c = .error e → ¬ e.Internal) : Sound enter (fun _ => look f) c := by
  refine .still fun e c' he => ?_
  unfold look at he
  cases hf : f c with
  | ok a => rw [hf] at he; cases he
  | error e' => rw [hf] at he; cases he; exact h e hf

/-- What goes out of range refuses nothing. -/
theorem sound_inRange (f : Computation → Option α) : Sound enter (fun _ => inRange f) c := by
  refine .still fun e c' he => ?_
  unfold inRange at he
  cases hf : f c <;> rw [hf] at he <;> cases he

/-- An unknown component is not one of those checks. -/
theorem component_error {id : Handle} {e : Refusal} (h : c.component id = .error e) :
    ¬ e.Internal := by
  cases hr : c.registry.get? id with
  | none => rw [component_none hr] at h; cases h; exact not_false
  | some r => rw [component_eq hr] at h; cases h

/-- The operations that enter no body, one by one: their own refusals are about handles, slots and
    elements. -/
theorem sound_signal (i : Nat) : Sound enter (fun _ => Action.signal i) c := by
  refine .bind (fun _ => .inr fun _ _ => rfl) (sound_inRange _) fun w c₁ _ => ?_
  refine .bind (fun _ => .inr fun _ _ => rfl) (.still fun e c' he => by cases he) fun _ c₂ _ => ?_
  refine .bind (fun _ => .inr fun _ _ => rfl) (.still fun e c' he => by cases he) fun d c₃ _ => ?_
  split
  · exact sound_look fun e he => by cases he; exact not_false
  · exact sound_inRange _

theorem sound_setSignal (i : Nat) (v : Scalar) : Sound enter (fun _ => setSignal i v) c :=
  .bind (fun _ => .inr fun _ _ => rfl) (sound_inRange _) fun _ _ _ =>
    .still fun e c' he => by cases he

theorem sound_child (parent : Handle) (slot : Nat) :
    Sound enter (fun _ => look fun c => c.child parent slot) c := by
  refine sound_look fun e he => ?_
  unfold Computation.child at he
  cases hr : c.component parent with
  | error e' => rw [hr] at he; cases he; exact component_error hr
  | ok r =>
    rw [hr] at he
    simp only at he
    split at he <;> cases he <;> exact not_false

theorem sound_handleAfter (parent : Handle) (offset : Nat) :
    Sound enter (fun _ => look fun c => c.handleAfter parent offset) c := by
  refine sound_look fun e he => ?_
  unfold Computation.handleAfter at he
  split at he <;> cases he
  exact not_false

theorem sound_assert (id : Handle) (v : Scalar) (line : Nat) :
    Sound enter (fun _ => look fun c => c.assert id v line) c := by
  refine sound_look fun e he => ?_
  unfold Computation.assert at he
  split at he <;> cases he
  exact not_false

/-- The same of looks at components. -/
theorem sound_component (id : Handle) : Sound enter (fun _ => look fun c => c.component id) c :=
  sound_look fun _ he => component_error he

theorem sound_signalStart (id : Handle) :
    Sound enter (fun _ => look fun c => c.signalStart id) c := by
  refine sound_look fun e he => ?_
  unfold Computation.signalStart at he
  cases hr : c.component id with
  | error e' => rw [hr] at he; cases he; exact component_error hr
  | ok r => rw [hr] at he; cases he

theorem sound_keepChild (parent : Handle) (slot : Nat) (child : Handle) :
    Sound enter (fun _ => keepChild parent slot child) c := by
  refine .bind (fun _ => .inr fun _ _ => rfl) (sound_component parent) fun r c' _ => ?_
  by_cases hs : r.slots.size ≤ slot
  · simp only [if_pos hs]
    exact sound_look fun e he => by cases he; exact not_false
  · simp only [if_neg hs]
    exact .still fun e c' he => by cases he

theorem sound_release (child : Option Handle) : Sound enter (fun _ => release child) c := by
  cases child with
  | none => exact .still fun e c' he => by cases he
  | some id =>
    refine .bind (fun _ => .inr fun _ _ => rfl) (sound_component id) fun r c' _ => ?_
    split
    · exact .still fun e c' he => by cases he
    · exact .still fun e c' he => by cases he
    · exact sound_look fun e he => by cases he; exact not_false

/-- The refusals of a walk are those of its steps. -/
theorem sound_releaseAll (children : List (Option Handle)) :
    Sound enter (fun _ => releaseAll children) c := by
  induction children generalizing c with
  | nil => exact .still fun e c' he => by cases he
  | cons child rest ih =>
    exact .bind (fun _ => .inr fun _ _ => rfl) (sound_release child) fun _ _ _ => ih

theorem sound_releaseChildren (parent : Handle) :
    Sound enter (fun _ => releaseChildren parent) c :=
  .bind (fun _ => .inr fun _ _ => rfl) (sound_component parent) fun _ _ _ => sound_releaseAll _

end Still

/-! ## Actions that may start a body -/

/-- The template of the component that a request creates. -/
def Request.template? : Request → Option TemplateId
  | .create _ t _ _ _ | .createChild _ _ _ t _ _ => some t
  | _ => none

/-- The refusals that a request may have of its own: none of them is internal, but that there is
    no template for a component to be created. -/
def Request.MayRefuse (c : Computation) (q : Request) (e : Refusal) : Prop :=
  ¬ e.Internal ∨ ∃ t id label, q.template? = some t ∧ c.circuit.templates.shape? t = none ∧
    e = .graphDefect id label (.unknownTemplate t)

section Running

variable {enter : Enter} {s : List Handle} {c : Computation}

/-- The handle of a new component may be refused, and nothing else is. -/
theorem create_defect_sound {reg : Registry} {id : Handle} {r : Component} {d : GraphDefect}
    (h : reg.create id r = .error d) (label : String) :
    ¬ (Refusal.graphDefect id label d).Internal := by
  rcases Registry.create_error h with rfl | rfl <;> exact not_false

/-- A component of a known template is created without an internal refusal. -/
theorem sound_create {t : TemplateId} {shape : TemplateShape}
    (ht : c.circuit.templates.shape? t = some shape) (id : Handle) (start : Nat) (label : String)
    (parent : Option Handle) : Sound enter (fun e => create e id t start label parent) c := by
  cases hr : c.registry.create id
      (Component.fresh t start shape.inputCounter shape.slots label parent) with
  | error d =>
    refine .of_eq (fun _ => create_refused ht hr) fun e c' he => ?_
    cases he
    exact create_defect_sound hr _
  | ok reg =>
    by_cases hn : shape.inputs = 0
    · -- Without inputs the body is begun at once, and nothing stands against it.
      obtain ⟨body, hb⟩ := startable_enrolled ht hr hn
      exact .run (fun e => by rw [create_ok ht hr, if_pos hn]) hb
    · have hact : ∀ e, create e id t start label parent c = .ok () (c.enrolled reg id t) :=
        fun e => by rw [create_ok ht hr, if_neg hn]
      exact .of_eq hact fun e c' he => by cases he

/-- Creating a component of any template: at most, there is no such template. -/
theorem refuses_create (id : Handle) (t : TemplateId) (start : Nat) (label : String)
    (parent : Option Handle) :
    Refuses enter (fun e => create e id t start label parent) c fun e => ¬ e.Internal ∨
      c.circuit.templates.shape? t = none ∧
        e = .graphDefect id label (.unknownTemplate t) := by
  cases ht : c.circuit.templates.shape? t with
  | none =>
    refine .of_eq (fun _ => create_unknown ht) fun e c' he => .inr ⟨rfl, ?_⟩
    cases he
    rfl
  | some shape => exact (sound_create ht id start label parent).mono fun _ => .inl

/-- The input of a component that waits for it is written and counted, and the last one starts
    the body. -/
theorem sound_writeInput (hm : Moment.Settled ⟨s, c⟩) (id : Handle) (l : Nat) (v : Scalar) :
    Sound enter (fun e => writeInput e id l v) c := by
  cases hi : c.inputSignal id l with
  | error e =>
    refine .of_eq (fun _ => bind_error (look_error hi)) fun e' c' he => ?_
    cases he
    unfold Computation.inputSignal at hi
    cases hr : c.registry.get? id with
    | none => rw [component_none hr] at hi; cases hi; exact not_false
    | some r =>
      obtain ⟨shape, hshape, -⟩ := (hm.records id r hr).known
      have hshape : c.circuit.templates.shape? r.template = some shape := hshape
      rw [component_eq hr] at hi
      simp only [hshape] at hi
      split at hi
      · cases hi; exact not_false
      split at hi <;> cases hi
      exact not_false
  | ok i =>
    cases hw : c.store.isWritten? i with
    | none =>
      have hact : ∀ e, writeInput e id l v c = .error .outOfRange c := fun e =>
        (bind_ok (look_ok hi)).trans (bind_error (setSignal_none hw))
      exact .of_eq hact fun e c' he => by cases he
    | some w =>
      obtain ⟨r, shape, hr, -, -, hs, -⟩ := of_inputSignal hi
      -- The component has not begun, so an input is missing: the count can be lowered.
      have hpos : r.pending ≠ 0 := fun hz => (hm.records id r hr).agrees.mp hz hs
      obtain ⟨n, hp⟩ := Nat.exists_eq_succ_of_ne_zero hpos
      by_cases hn : n = 0
      · subst hn
        obtain ⟨body, hb⟩ := startable_arrived (v := v) hi
        refine .run (fun e => ?_) hb
        rw [writeInput_eq hi hw, arrive_last (c := c.wrote i v) hr hp]
      · have hact : ∀ e, writeInput e id l v c = .ok () ((c.wrote i v).arrived id i n) :=
          fun e => by rw [writeInput_eq hi hw, arrive_waiting (c := c.wrote i v) hr hp hn]
        exact .of_eq hact fun e c' he => by cases he

/-- The main component is created over its inputs and started. -/
theorem sound_runMain
    (ht : c.circuit.templates.shape? c.circuit.mainTemplate = some c.circuit.mainShape)
    (hfit : c.circuit.CountersFit) : Sound enter (fun e => runMain e) c := by
  have hn := hfit _ _ ht
  cases hr : c.registry.create .mainComponent c.mainRecord with
  | error d =>
    refine .of_eq (fun _ => runMain_refused ht hr) fun e c' he => ?_
    cases he
    exact create_defect_sound hr _
  | ok reg =>
    obtain ⟨body, hb⟩ := startable_ready ht hn hr
    exact .run (fun _ => runMain_eq ht hn hr) hb

/-- Only the last assignment enters a body, and it finds the main component's template. -/
theorem sound_assignByHash
    (ht : c.circuit.templates.shape? c.circuit.mainTemplate = some c.circuit.mainShape)
    (hfit : c.circuit.CountersFit) (hash : UInt64) (index : Nat) (v : Scalar) :
    Sound enter (fun e => assignByHash e hash index v) c := by
  cases hi : c.inputSlot hash index with
  | error e =>
    refine .of_eq (fun _ => assignByHash_refused hi) fun e' c' he => ?_
    cases he
    unfold Computation.inputSlot at hi
    split at hi
    · cases hi; exact not_false
    split at hi
    · cases hi; exact not_false
    split at hi <;> cases hi
    exact not_false
  | ok i =>
    cases hw : c.store.isWritten? i with
    | none => exact .of_eq (fun _ => assignByHash_outOfRange hi hw) fun e c' he => by cases he
    | some w =>
      cases w with
      | true =>
        refine .of_eq (fun _ => assignByHash_twice hi hw) fun e c' he => ?_
        cases he
        exact not_false
      | false =>
        by_cases hlast : c.pendingInputs - 1 = 0
        · refine .step (fun e => ?_) (sound_runMain (c := c.assigned i v) ht hfit)
          rw [assignByHash_ok hi hw, if_pos hlast]
        · have hact : ∀ e, assignByHash e hash index v c = .ok () (c.assigned i v) :=
            fun e => by rw [assignByHash_ok hi hw, if_neg hlast]
          exact .of_eq hact fun e c' he => by cases he

theorem sound_assignByName
    (ht : c.circuit.templates.shape? c.circuit.mainTemplate = some c.circuit.mainShape)
    (hfit : c.circuit.CountersFit) (name : String) (index : Nat) (v : Scalar) :
    Sound enter (fun e => assignByName e name index v) c := by
  cases h : c.circuit.inputs.findName? name with
  | none =>
    refine .of_eq (fun _ => assignByName_unknown h) fun e c' he => ?_
    cases he
    exact not_false
  | some signal =>
    exact .step (fun _ => assignByName_known h) (sound_assignByHash ht hfit _ index v)

end Running

/-! ## All requests -/

section Regular

variable {α β : Type} {levels : Nat} {s : List Handle} {c : Computation}

/-- One action after another, at regular moments. -/
theorem Moment.Regular.sound_bind {x : Enter → Action α} {f : α → Enter → Action β}
    {Q : α → Computation → Prop} (hm : Moment.Regular ⟨s, c⟩)
    (hpath : Follows .noCount (enterWithin levels) s x c Q) (hx : Sound (enterWithin levels) x c)
    (hf : ∀ a c', Moment.Regular ⟨s, c'⟩ → Sound (enterWithin levels) (f a) c') :
    Sound (enterWithin levels) (fun e => x e >>= fun a => f a e) c := by
  obtain ⟨hreach, hends⟩ := hpath.noCount hm.upright hm.only
  refine .bind (fun y => (hreach y).imp_left And.left) hx fun a c' hr => hf a c' ?_
  rw [hr] at hends
  exact hends.1.regular hm

/-- In a row, each input is refused for reasons of its own or by a body that the row has
    entered. -/
theorem sound_writeInputs (id : Handle) (vs : List Scalar) (l : Nat)
    (hm : Moment.Regular ⟨s, c⟩) :
    Sound (enterWithin levels) (fun e => writeInputs e id l vs) c := by
  induction vs generalizing l c with
  | nil => exact .still fun e c' he => by cases he
  | cons v rest ih =>
    exact hm.sound_bind (follows_writeInput hm.upright fun _ => by simp)
      (sound_writeInput hm.settled id l v) fun _ _ hm' => ih (l + 1) hm'

/-- The same of the elements of an input, -/
theorem sound_assignElements (name : String) (vs : List Scalar) (index : Nat)
    (hm : Moment.Regular ⟨s, c⟩) :
    Sound (enterWithin levels) (fun e => assignElements e name index vs) c := by
  induction vs generalizing index c with
  | nil => exact .still fun e c' he => by cases he
  | cons v rest ih =>
    exact hm.sound_bind (follows_assignByName hm.upright name index v)
      (sound_assignByName hm.main hm.fits name index v) fun _ _ hm' => ih (index + 1) hm'

/-- and of all inputs. -/
theorem sound_assignEntries (entries : List (String × List Scalar))
    (hm : Moment.Regular ⟨s, c⟩) :
    Sound (enterWithin levels) (fun e => assignEntries e entries) c := by
  induction entries generalizing c with
  | nil => exact .still fun e c' he => by cases he
  | cons entry rest ih =>
    exact hm.sound_bind (follows_assignElements entry.1 entry.2 0 c hm.upright)
      (sound_assignElements entry.1 entry.2 0 hm) fun _ _ hm' => ih hm'

/-- **No request refuses for an internal reason of its own**, unless it asks for just that: to
    count an input, or to begin a body by hand. -/
theorem Request.refuses (hm : Moment.Regular ⟨s, c⟩) {q : Request} (hq : q.NoCount)
    (ht : ∀ id, q ≠ .trigger id) :
    Refuses (enterWithin levels) (fun e => q.perform e) c (q.MayRefuse c) := by
  have hsound : Sound (enterWithin levels) (fun e => q.perform e) c →
      Refuses (enterWithin levels) (fun e => q.perform e) c (q.MayRefuse c) :=
    fun h => h.mono fun _ => .inl
  cases q with
  | countInput id => exact absurd rfl (hq id)
  | trigger id => exact absurd rfl (ht id)
  | create id t start label parent =>
    refine (refuses_create id t start label parent).mono fun e he => ?_
    exact he.imp_right fun he => ⟨t, id, label, rfl, he⟩
  | createChild parent slot id t start label =>
    -- The slot is filled first, and that changes nothing about templates.
    have hkeep : Follows .noCount (enterWithin levels) s (fun _ => keepChild parent slot id) c
        fun _ _ => True := follows_keepChild parent slot id
    obtain ⟨hreach, hends⟩ := hkeep.noCount hm.upright hm.only
    refine .bind (fun y => (hreach y).imp_left And.left)
      ((sound_keepChild parent slot id).mono fun _ => .inl) fun _ c' hr => ?_
    rw [hr] at hends
    have hcirc : c'.circuit = c.circuit := hends.1.circuit_eq.1
    refine (refuses_create id t start label (some parent)).mono fun e he => ?_
    rw [hcirc] at he
    exact he.imp_right fun he => ⟨t, id, label, rfl, he⟩
  | writeInput id l v => exact hsound (sound_writeInput hm.settled id l v)
  | writeInputs id l vs => exact hsound (sound_writeInputs id vs l hm)
  | assignByHash hash index v => exact hsound (sound_assignByHash hm.main hm.fits hash index v)
  | assignByName name index v => exact hsound (sound_assignByName hm.main hm.fits name index v)
  | assignAll inputs => exact hsound (sound_assignEntries inputs.entries hm)
  | runMain => exact hsound (sound_runMain hm.main hm.fits)
  | signal i => exact hsound (sound_signal i)
  | setSignal i v => exact hsound (sound_setSignal i v)
  | constant | witness | peek => exact hsound (sound_inRange _)
  | signalStart id => exact hsound (sound_signalStart id)
  | handleAfter parent offset => exact hsound (sound_handleAfter parent offset)
  | child parent slot => exact hsound (sound_child parent slot)
  | assert id v line => exact hsound (sound_assert id v line)
  | release child => exact hsound (sound_release child)
  | releaseChildren parent => exact hsound (sound_releaseChildren parent)
  | active | stage | label | templateName | witnessLength | trace | note =>
    exact hsound (.still fun e c' he => by cases he)

end Regular

/-- **The scheduler is sound.**  A program acts on an accepted circuit from the start, by any
    requests but to count an input without writing one, and so do the bodies.  At every moment of
    the run, inside and outside of bodies and after whatever failures, a component misses no input
    exactly if its body has begun; and no request that is made there would be refused for an
    internal reason of its own. -/
theorem Program.Visits.scheduler_sound {α : Type} {levels : Nat} {p : Program α}
    {d : CircuitDescription} {circuit : Circuit} {config : Config} {m : Moment}
    {next : Option Request} (hd : d.accept = .ok circuit) (hfit : circuit.CountersFit)
    (hc : circuit.Only Request.NoCount) (hp : p.Only Request.NoCount)
    (hv : p.Visits levels (.start circuit config) next m) :
    (∀ id r, m.state.registry.get? id = some r → (r.pending = 0 ↔ r.stage ≠ .created)) ∧
    ∀ (below : Nat) (q : Request) (e : Refusal) (c' : Computation), q.NoCount →
      (∀ id, q ≠ .trigger id) →
      q.perform (enterWithin below) m.state = .error (.refused e) c' →
      q.MayRefuse m.state e ∨ PassesOn (enterWithin below) (fun en => q.perform en) m.state e := by
  have hm : m.Regular := hv.regular hd hfit hc hp
  refine ⟨fun id r hr => (hm.settled.records id r hr).agrees, ?_⟩
  intro below q e c' hq ht he
  exact Request.refuses (s := m.stack) hm hq ht e c' he

/-- The same inside the body of the small circuit's main component, which is running there. -/
theorem Program.Visits.scheduler_sound_relay :
    relayInside.registry.stage? ⟨0⟩ = some .running ∧
    (∀ id r, relayInside.registry.get? id = some r → (r.pending = 0 ↔ r.stage ≠ .created)) ∧
    ∀ (below : Nat) (q : Request) (e : Refusal) (c' : Computation), q.NoCount →
      (∀ id, q ≠ .trigger id) →
      q.perform (enterWithin below) relayInside = .error (.refused e) c' →
      q.MayRefuse relayInside e ∨
        PassesOn (enterWithin below) (fun en => q.perform en) relayInside e :=
  ⟨by decide, scheduler_sound accept_relay relay_fits
    (relay_only.mono fun _ => Request.Ordinary.noCount)
    (relayProgram_only.mono fun _ => Request.Ordinary.noCount) relay_visits⟩

end CircuitWitness
