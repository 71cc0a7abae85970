import CircuitWitness.Proofs.Follow
/-
  Each request moves by steps.

  The operations of the engine are gone through one by one, from the start of a body up to the
  assignment of all main inputs.  Where an operation writes or creates and then starts a body, the
  two are one step.
-/

namespace CircuitWitness

open CircuitWitness.Action

variable {π : Policy} {enter : Enter} {s : List Handle} {c : Computation}

/-! ## What an accepted look has found -/

/-- What it takes for a local signal to be an input that can be written. -/
theorem of_inputSignal {id : Handle} {l i : Nat} (h : c.inputSignal id l = .ok i) :
    ∃ r shape, c.registry.get? id = some r ∧ c.circuit.templates.shape? r.template = some shape ∧
      shape.isInput l = true ∧ r.stage = .created ∧ i = r.signalStart + l := by
  unfold Computation.inputSignal at h
  cases hr : c.registry.get? id with
  | none => rw [component_none hr] at h; cases h
  | some r =>
    rw [component_eq hr] at h
    simp only at h
    split at h
    · cases h
    rename_i shape hshape
    split at h
    · cases h
    rename_i hl
    split at h
    · cases h
    rename_i hs
    injection h with h
    exact ⟨r, shape, rfl, hshape, by simpa using hl, by simpa using hs, h.symm⟩

/-- A component that was just created without inputs can start. -/
theorem startable_enrolled {id : Handle} {t : TemplateId} {start : Nat} {label : String}
    {parent : Option Handle} {shape : TemplateShape} {reg : Registry}
    (ht : c.circuit.templates.shape? t = some shape)
    (hr : c.registry.create id
      (Component.fresh t start shape.inputCounter shape.slots label parent) = .ok reg)
    (hn : shape.inputs = 0) : ∃ body, (c.enrolled reg id t).startable id = .ok body := by
  obtain ⟨body, hb⟩ := TemplateTable.body?_of_shape? ht c.config.useAlternate
  obtain ⟨-, -, -, hget⟩ := Registry.create_ok hr
  have hid := hget id
  rw [if_pos rfl] at hid
  have hp : shape.inputCounter = 0 := TemplateShape.inputCounter_zero hn
  exact ⟨body, startable_eq (c := c.enrolled reg id t) hid rfl hp hb⟩

/-- A component that takes an input can start once that was the last one. -/
theorem startable_arrived {id : Handle} {l i : Nat} {v : Scalar}
    (hi : c.inputSignal id l = .ok i) :
    ∃ body, ((c.wrote i v).arrived id i 0).startable id = .ok body := by
  obtain ⟨r, shape, hr, hshape, -, hs, -⟩ := of_inputSignal hi
  obtain ⟨body, hb⟩ := TemplateTable.body?_of_shape? hshape c.config.useAlternate
  have hget : (c.registry.modify id fun r => { r with pending := 0 }).get? id
      = some { r with pending := 0 } := (Registry.sets_modify hr _).self
  exact ⟨body, startable_eq (c := (c.wrote i v).arrived id i 0) hget hs rfl hb⟩

/-! ## Requests that enter no body -/

/-- An action without bodies moves by steps if there is a path to where it ends. -/
theorem Follows.quiet {α : Type} {act : Action α} (h : Path π ⟨s, c⟩ ⟨s, act.after c⟩) :
    Follows π enter s (fun _ => act) c fun _ _ => True := by
  refine .still (fun _ => rfl) ?_
  unfold after at h
  cases hr : act c with
  | ok a c' => rw [hr] at h; exact ⟨h, trivial⟩
  | error f c' => rw [hr] at h; exact h

/-- Looks leave the state as it is. -/
theorem after_look {α : Type} (f : Computation → Except Refusal α) : (look f).after c = c := by
  cases h : f c with
  | ok a => exact after_ok (look_ok h)
  | error e => exact after_error (look_error h)

theorem after_inRange {α : Type} (f : Computation → Option α) : (inRange f).after c = c := by
  cases h : f c with
  | some a => exact after_ok (inRange_some h)
  | none => exact after_error (inRange_none h)

/-- A sequence ends where its second part ends. -/
theorem after_bind {α β : Type} {x : Action α} {f : α → Action β} {a : α} {c' : Computation}
    (h : x c = .ok a c') : (x >>= f).after c = (f a).after c' := by
  unfold after; rw [bind_ok h]

/-- Looking changes nothing. -/
theorem follows_look {α : Type} (f : Computation → Except Refusal α) :
    Follows π enter s (fun _ => look f) c fun _ _ => True :=
  .quiet (by rw [after_look])

/-- Each operation moves by steps; the first ones enter no bodies. -/
theorem follows_inRange {α : Type} (f : Computation → Option α) :
    Follows π enter s (fun _ => inRange f) c fun _ _ => True :=
  .quiet (by rw [after_inRange])

/-- Reading a signal leaves its event, whether the read is answered or refused. -/
theorem after_signal {i : Nat} {w : Bool} (hw : c.store.isWritten? i = some w) :
    (Action.signal i).after c = c.recorded (.signalRead i w) := by
  unfold Action.signal
  rw [after_bind (inRange_some hw), after_bind (show record _ c = .ok () (c.recorded _) from rfl),
    after_bind (show (get : Action Computation) _ = .ok _ _ from rfl)]
  split
  · exact after_look _
  · exact after_inRange _

theorem follows_signal (i : Nat) :
    Follows π enter s (fun _ => Action.signal i) c fun _ _ => True := by
  refine .quiet ?_
  cases hw : c.store.isWritten? i with
  | none => rw [show (Action.signal i).after c = c from after_error (signal_outside hw)]
  | some w =>
    rw [after_signal hw]
    exact .single (.read hw)

theorem follows_setSignal (i : Nat) (v : Scalar) :
    Follows π enter s (fun _ => setSignal i v) c fun _ _ => True := by
  cases hw : c.store.isWritten? i with
  | none => exact .still (fun _ => setSignal_none hw) .refl
  | some w => exact .still (fun _ => setSignal_ok hw) ⟨.single (.write hw), trivial⟩

theorem follows_keepChild (parent : Handle) (slot : Nat) (child : Handle) :
    Follows π enter s (fun _ => keepChild parent slot child) c fun _ _ => True := by
  cases hr : c.registry.get? parent with
  | none => exact .still (fun _ => keepChild_unknown hr) .refl
  | some r =>
    by_cases hs : slot < r.slots.size
    · exact .still (fun _ => keepChild_ok hr hs) ⟨.single (.keep hr hs), trivial⟩
    · exact .still (fun _ => keepChild_outside hr (Nat.le_of_not_lt hs)) .refl

/-- To count an input is a step of its own only where that request is allowed. -/
theorem follows_countInput (id : Handle) (hq : π.allows c (.countInput id)) :
    Follows π enter s (fun _ => countInput id) c fun _ _ => True := by
  cases hr : c.registry.get? id with
  | none => exact .still (fun _ => countInput_none hr) .refl
  | some r =>
    cases hp : r.pending with
    | zero => exact .still (fun _ => countInput_underflow hr hp) .refl
    | succ n => exact .still (fun _ => countInput_ok hr hp) ⟨.single (.count hq hr hp), trivial⟩

theorem follows_release (child : Option Handle) :
    Follows π enter s (fun _ => release child) c fun _ _ => True := by
  refine .quiet ?_
  rcases release_cases child c with ⟨e, h⟩ | ⟨h, -⟩ | ⟨id, r, -, hr, hs, h⟩
  · rw [after_error h]
  · rw [after_ok h]
  · rw [after_ok h]
    exact .single (.release hr hs)

/-- Step by step along the list. -/
theorem follows_releaseAll (children : List (Option Handle)) :
    ∀ c, Follows π enter s (fun _ => releaseAll children) c fun _ _ => True := by
  induction children with
  | nil => intro c; exact .still (fun _ => rfl) ⟨.refl, trivial⟩
  | cons child rest ih =>
    intro c
    exact (follows_release child).bind fun _ c' _ _ => ih c'

theorem follows_releaseChildren (parent : Handle) :
    Follows π enter s (fun _ => releaseChildren parent) c fun _ _ => True :=
  (follows_look _).bind fun _ c' _ _ => follows_releaseAll _ c'

/-! ## Requests that may start a body -/

/-- A component that starts moves into its body, along it, and back. -/
theorem follows_trigger (hup : Moment.Upright ⟨s, c⟩) (id : Handle) :
    Follows π enter s (fun e => trigger e id) c fun _ _ => True := by
  cases hb : c.startable id with
  | error e => exact .still (fun _ => trigger_refused hb) .refl
  | ok body => exact .run (fun _ => rfl) hb (.trigger hb) hup fun _ _ _ => trivial

/-- A component that was created keeps its template and its place, also if it ran at once. -/
theorem follows_create (hup : Moment.Upright ⟨s, c⟩) (id : Handle) (t : TemplateId) (start : Nat)
    (label : String) (parent : Option Handle) :
    Follows π enter s (fun e => create e id t start label parent) c fun _ c' =>
      ∃ r, c'.registry.get? id = some r ∧ r.template = t ∧ r.signalStart = start := by
  cases ht : c.circuit.templates.shape? t with
  | none => exact .still (fun _ => create_unknown ht) .refl
  | some shape =>
    cases hr : c.registry.create id
        (Component.fresh t start shape.inputCounter shape.slots label parent) with
    | error d => exact .still (fun _ => create_refused ht hr) .refl
    | ok reg =>
      obtain ⟨-, -, -, hget⟩ := Registry.create_ok hr
      have hnew := hget id
      rw [if_pos rfl] at hnew
      by_cases hn : shape.inputs = 0
      · obtain ⟨body, hb⟩ := startable_enrolled ht hr hn
        refine .run (fun e => by rw [create_ok ht hr, if_pos hn]) hb (.createRun ht hr hn) hup ?_
        intro c' _ hp
        have hages := (Registry.ages_advance reg id .running (by decide)).trans hp.ages
        obtain ⟨r, hr', ha⟩ := hages id _ hnew
        exact ⟨r, hr', ha.template_eq, ha.start_eq⟩
      · have hact : ∀ e, create e id t start label parent c = .ok () (c.enrolled reg id t) :=
          fun e => by rw [create_ok ht hr, if_neg hn]
        exact .still hact ⟨.single (.create ht hr hn), _, hnew, rfl, rfl⟩

/-- A new child is kept in its slot first and created then. -/
theorem follows_createChild (hup : Moment.Upright ⟨s, c⟩) (parent : Handle) (slot : Nat)
    (child : Handle) (t : TemplateId) (start : Nat) (label : String) :
    Follows π enter s (fun e => createChild e parent slot child t start label) c
      fun _ c' => ∃ r, c'.registry.get? child = some r ∧ r.template = t ∧ r.signalStart = start :=
  (follows_keepChild parent slot child).bind fun _ _ hp _ =>
    follows_create (hp.upright hup) child t start label (some parent)

/-- A component whose body began is started ever after. -/
theorem Path.started {s' : List Handle} {c' : Computation} {id : Handle} {r : Component}
    (hp : Path π ⟨s, c.begun id⟩ ⟨s', c'⟩) (hr : c.registry.get? id = some r) : c'.Started id := by
  have hget : (c.begun id).registry.get? id = some { r with stage := .running } :=
    (Registry.sets_modify hr _).self
  obtain ⟨r', hr', ha⟩ := hp.ages id _ hget
  exact ⟨r', hr', ha.begun (fun h => by cases h)⟩

/-- Either the input was counted and others are still missing, or the component has begun. -/
theorem follows_writeInput (hup : Moment.Upright ⟨s, c⟩) {id : Handle} {l : Nat} {v : Scalar}
    (hq : π.allows c (.writeInput id l v)) :
    Follows π enter s (fun e => writeInput e id l v) c fun _ c' =>
      (∃ i n, c.inputSignal id l = .ok i ∧ c' = (c.wrote i v).arrived id i n) ∨ c'.Started id := by
  cases hi : c.inputSignal id l with
  | error e => exact .still (fun _ => bind_error (look_error hi)) .refl
  | ok i =>
    cases hw : c.store.isWritten? i with
    | none =>
      have hact : ∀ e, writeInput e id l v c = .error .outOfRange c := fun e =>
        (bind_ok (look_ok hi)).trans (bind_error (setSignal_none hw))
      exact .still hact .refl
    | some w =>
      obtain ⟨r, shape, hr, -, -, hs, -⟩ := of_inputSignal hi
      -- A count of zero is refused after the write, and a count of one begins the body.
      cases hp : r.pending with
      | zero =>
        have hact : ∀ e, writeInput e id l v c
            = .error (.refused ((c.wrote i v).defect id .counterUnderflow)) (c.wrote i v) :=
          fun e => by
            rw [writeInput_eq hi hw]
            exact arrive_error (countInput_underflow (c := c.wrote i v) hr hp)
        exact .still hact (.single (.write hw))
      | succ n =>
        by_cases hn : n = 0
        · subst hn
          obtain ⟨body, hb⟩ := startable_arrived (v := v) hi
          have hget : ((c.wrote i v).arrived id i 0).registry.get? id
              = some { r with pending := 0 } := (Registry.sets_modify hr _).self
          refine .run (fun e => ?_) hb (.inputRun hq hi hw hr hp) hup fun c' _ hp => ?_
          · rw [writeInput_eq hi hw, arrive_last (c := c.wrote i v) hr hp]
          · exact .inr (hp.started hget)
        · have hact : ∀ e, writeInput e id l v c = .ok () ((c.wrote i v).arrived id i n) :=
            fun e => by rw [writeInput_eq hi hw, arrive_waiting (c := c.wrote i v) hr hp hn]
          exact .still hact ⟨.single (.input hq hi hw hr hp hn), .inl ⟨i, n, rfl, rfl⟩⟩

/-- Inputs in a row.  After the last missing one the component has begun, and the rest of the row
    is refused; so what was allowed of the row stays allowed of the rest. -/
theorem follows_writeInputs (id : Handle) (vs : List Scalar) :
    ∀ (l : Nat) (c : Computation), Moment.Upright ⟨s, c⟩ → π.allows c (.writeInputs id l vs) →
      Follows π enter s (fun e => writeInputs e id l vs) c fun _ _ => True := by
  induction vs with
  | nil => intro l c _ _; exact .still (fun _ => rfl) ⟨.refl, trivial⟩
  | cons v rest ih =>
    intro l c hup hq
    refine (follows_writeInput hup (π.first hq)).bind fun _ c' hp hnext => ?_
    refine ih (l + 1) c' (hp.upright hup) ?_
    rcases hnext with ⟨i, n, hi, rfl⟩ | hstarted
    · exact π.later hq hi
    · exact π.started hq hstarted

/-! ## Main inputs -/

/-- Counting the inputs of the main component, whose record is the one that was created for it. -/
theorem follows_arriveAll (signals : List Nat) :
    ∀ c, Moment.Upright ⟨s, c⟩ → ((∃ c₀, π.allows c₀ .runMain) ∨ c.pendingInputs = 0) →
      (∃ r, c.registry.get? .mainComponent = some r ∧ r.template = c.circuit.mainTemplate ∧
        r.signalStart = c.circuit.mainSignalStart) →
      (∀ i ∈ signals, i ∈ List.range' c.circuit.mainInputStart c.circuit.mainInputCount) →
      Follows π enter s (fun e => arriveAll e signals) c fun _ _ => True := by
  induction signals with
  | nil => intro c _ _ _ _; exact .still (fun _ => rfl) ⟨.refl, trivial⟩
  | cons i rest ih =>
    intro c hup hq hmain hin
    obtain ⟨r, hr, ht, hs⟩ := hmain
    have hi := hin i (List.mem_cons_self ..)
    have hfirst : Follows π enter s (fun e => arrive e .mainComponent i) c fun _ _ => True := by
      cases hp : r.pending with
      | zero => exact .still (fun _ => arrive_error (countInput_underflow hr hp)) .refl
      | succ n =>
        by_cases hn : n = 0
        · -- The record may have begun already, if inputs were counted by hand before.
          subst hn
          cases hb : (c.arrived .mainComponent i 0).startable .mainComponent with
          | error e =>
            have hact : ∀ e', arrive e' .mainComponent i c
                = .error (.refused e) (c.arrived .mainComponent i 0) := fun e' => by
              rw [arrive_last hr hp, trigger_refused hb]
            exact .still hact (.single (.account hq hr ht hs hp (.inr ⟨e, hb⟩) hi))
          | ok body =>
            exact .run (fun e => arrive_last hr hp) hb (.accountRun hq hr ht hs hp hb hi)
              hup fun _ _ _ => trivial
        · exact .still (fun _ => arrive_waiting hr hp hn)
            ⟨.single (.account hq hr ht hs hp (.inl hn) hi), trivial⟩
    refine hfirst.bind fun _ c' hpath _ => ih c' (hpath.upright hup) (hpath.mayCount hq) ?_ ?_
    · obtain ⟨r', hr', ha⟩ := hpath.ages _ r hr
      have hc : c'.circuit = c.circuit := hpath.circuit_eq.1
      exact ⟨r', hr', by rw [hc, ha.template_eq, ht], by rw [hc, ha.start_eq, hs]⟩
    · have hc : c'.circuit = c.circuit := hpath.circuit_eq.1
      intro j hj
      rw [hc]
      exact hin j (List.mem_cons_of_mem i hj)

/-- The main component is created, and its inputs are counted one by one. -/
theorem follows_runMain (hup : Moment.Upright ⟨s, c⟩)
    (hq : (∃ c₀, π.allows c₀ .runMain) ∨ c.pendingInputs = 0) :
    Follows π enter s (fun e => runMain e) c fun _ _ => True := by
  have hact : ∀ e, runMain e c = (create e .mainComponent c.circuit.mainTemplate
      c.circuit.mainSignalStart "main" none >>= fun _ =>
        arriveAll e (List.range' c.circuit.mainInputStart c.circuit.mainInputCount)) c :=
    fun _ => rfl
  refine .step hact .refl ?_
  refine (follows_create hup _ _ _ _ _).bind fun _ c' hp hmain => ?_
  obtain ⟨r, hr, ht, hs⟩ := hmain
  have hc : c'.circuit = c.circuit := hp.circuit_eq.1
  exact follows_arriveAll _ c' (hp.upright hup) (hp.mayCount hq)
    ⟨r, hr, by rw [hc, ht], by rw [hc, hs]⟩ fun i hi => by rw [hc]; exact hi

/-- An assignment writes, counts, and at the last of them runs the main component. -/
theorem follows_assignByHash (hup : Moment.Upright ⟨s, c⟩) (hash : UInt64) (index : Nat)
    (v : Scalar) :
    Follows π enter s (fun e => assignByHash e hash index v) c fun _ _ => True := by
  cases hi : c.inputSlot hash index with
  | error e => exact .still (fun _ => assignByHash_refused hi) .refl
  | ok i =>
    cases hw : c.store.isWritten? i with
    | none => exact .still (fun _ => assignByHash_outOfRange hi hw) .refl
    | some w =>
      cases w with
      | true => exact .still (fun _ => assignByHash_twice hi hw) .refl
      | false =>
        have hassign : Path π ⟨s, c⟩ ⟨s, c.assigned i v⟩ := .single (.assign hi hw)
        by_cases hlast : c.pendingInputs - 1 = 0
        · refine .step (fun e => ?_) hassign
            (follows_runMain (hassign.upright hup) (.inr hlast))
          rw [assignByHash_ok hi hw, if_pos hlast]
        · have hact : ∀ e, assignByHash e hash index v c = .ok () (c.assigned i v) :=
            fun e => by rw [assignByHash_ok hi hw, if_neg hlast]
          exact .still hact ⟨hassign, trivial⟩

theorem follows_assignByName (hup : Moment.Upright ⟨s, c⟩) (name : String) (index : Nat)
    (v : Scalar) :
    Follows π enter s (fun e => assignByName e name index v) c fun _ _ => True := by
  cases h : c.circuit.inputs.findName? name with
  | none => exact .still (fun _ => assignByName_unknown h) .refl
  | some signal =>
    exact .step (fun _ => assignByName_known h) .refl (follows_assignByHash hup _ index v)

/-- Element by element, in a row. -/
theorem follows_assignElements (name : String) (vs : List Scalar) :
    ∀ index c, Moment.Upright ⟨s, c⟩ →
      Follows π enter s (fun e => assignElements e name index vs) c fun _ _ => True := by
  induction vs with
  | nil => intro index c _; exact .still (fun _ => rfl) ⟨.refl, trivial⟩
  | cons v rest ih =>
    intro index c hup
    exact (follows_assignByName hup name index v).bind fun _ c' hp _ =>
      ih (index + 1) c' (hp.upright hup)

theorem follows_assignEntries (entries : List (String × List Scalar)) :
    ∀ c, Moment.Upright ⟨s, c⟩ →
      Follows π enter s (fun e => assignEntries e entries) c fun _ _ => True := by
  induction entries with
  | nil => intro c _; exact .still (fun _ => rfl) ⟨.refl, trivial⟩
  | cons entry rest ih =>
    intro c hup
    obtain ⟨name, values⟩ := entry
    exact (follows_assignElements name values 0 c hup).bind fun _ c' hp _ =>
      ih c' (hp.upright hup)

/-! ## All requests -/

/-- A path that ends with nothing said about its result. -/
theorem Follows.forget {α : Type} {act : Enter → Action α} {Q : α → Computation → Prop}
    (h : Follows π enter s act c Q) : Follows π enter s act c fun _ _ => True := by
  intro hN
  obtain ⟨hreach, hends⟩ := h hN
  refine ⟨hreach, ?_⟩
  cases hr : act enter c with
  | ok a c' => rw [hr] at hends; exact ⟨hends.1, trivial⟩
  | error f c' => rw [hr] at hends; exact hends

/-- **Every request moves by steps**, if the bodies that it enters do. -/
theorem Request.follows (hup : Moment.Upright ⟨s, c⟩) (q : Request) (hq : π.allows c q) :
    Follows π enter s (fun e => q.perform e) c fun _ _ => True := by
  cases q with
  | signal i => exact follows_signal i
  | setSignal i v => exact follows_setSignal i v
  | constant | witness | peek => exact follows_inRange _
  | signalStart | handleAfter | child | assert => exact follows_look _
  | active | stage | label | templateName | witnessLength | trace =>
    exact .still (fun _ => rfl) ⟨.refl, trivial⟩
  | create id t start name parent => exact (follows_create hup id t start name parent).forget
  | createChild parent slot id t start name =>
    exact (follows_createChild hup parent slot id t start name).forget
  | writeInput id l v => exact (follows_writeInput hup hq).forget
  | writeInputs id l vs => exact follows_writeInputs id vs l c hup hq
  | countInput id => exact follows_countInput id hq
  | trigger id => exact follows_trigger hup id
  | release id => exact follows_release id
  | releaseChildren parent => exact follows_releaseChildren parent
  | assignByHash hash index v => exact follows_assignByHash hup hash index v
  | assignByName name index v => exact follows_assignByName hup name index v
  | assignAll inputs => exact follows_assignEntries inputs.entries c hup
  | runMain => exact follows_runMain hup (.inl ⟨c, hq⟩)
  | note n => exact .still (fun _ => rfl) ⟨.single .note, trivial⟩

end CircuitWitness
