import CircuitWitness.Proofs.Settled
/-
  What a refused request leaves behind.

  Most requests look first and change afterwards, so a refusal finds the state as it was.  Two of
  them change something between their checks.  Writing an input puts the value into the store
  before the input is counted, and creating a child puts the handle into the parent's slot before
  the child is entered.  If the later check refuses, the earlier change stays.

  Both theorems go through the checks in the order in which they are made.  Where the request fails
  without having started a body, they name the state in which it ends: the one before, or the one
  before with just that change.  For inputs, the late check is the one on the counter, and it never
  fails in a run in which inputs are counted only as they are written.
-/

namespace CircuitWitness

open CircuitWitness.Action

variable {α : Type} {enter : Enter} {c c' : Computation} {f : Fault}

/-- What comes to starting a component that can be started enters its body. -/
theorem Enters.of_trigger {act : Enter → Action Unit} {c₁ : Computation} {id : Handle} {body : Body}
    (hact : ∀ e, act e c = trigger e id c₁) (hb : c₁.startable id = .ok body) :
    Enters enter act c ⟨body, id, c₁.begun id⟩ :=
  .of_run fun e => (hact e).trans (trigger_eq hb)

/-! ## Writing inputs -/

section WriteInput

variable {id : Handle} {l i : Nat} {v : Scalar}

/-- A component that waits for its inputs but misses none takes a value, and does not count it. -/
theorem writeInput_underflow {r : Component} {w : Bool} (hi : c.inputSignal id l = .ok i)
    (hw : c.store.isWritten? i = some w) (hr : c.registry.get? id = some r) (hp : r.pending = 0) :
    writeInput enter id l v c
      = .error (.refused (c.defect id .counterUnderflow)) (c.wrote i v) := by
  rw [writeInput_eq hi hw]
  exact arrive_error (countInput_underflow (c := c.wrote i v) hr hp)

/-- A write that fails without having started the component changes nothing, unless it is the
    counter that refuses. -/
theorem writeInput_fails (h : writeInput enter id l v c = .error f c')
    (hno : ∀ x, ¬ Enters enter (fun e => writeInput e id l v) c x) :
    c' = c ∨ ∃ i r, c.inputSignal id l = .ok i ∧ c.registry.get? id = some r ∧ r.pending = 0 ∧
      f = .refused (c.defect id .counterUnderflow) ∧ c' = c.wrote i v := by
  cases hi : c.inputSignal id l with
  | error e =>
    cases (bind_error (look_error hi)).symm.trans h
    exact .inl rfl
  | ok i =>
    cases hw : c.store.isWritten? i with
    | none =>
      have hact : writeInput enter id l v c = .error .outOfRange c :=
        (bind_ok (look_ok hi)).trans (bind_error (setSignal_none hw))
      cases hact.symm.trans h
      exact .inl rfl
    | some w =>
      obtain ⟨r, -, hr, -⟩ := of_inputSignal hi
      cases hp : r.pending with
      | zero =>
        cases (writeInput_underflow hi hw hr hp).symm.trans h
        exact .inr ⟨i, r, rfl, hr, hp, rfl, rfl⟩
      | succ n =>
        by_cases hn : n = 0
        · -- The last input starts the component, which is ready for it.
          subst hn
          obtain ⟨body, hb⟩ := startable_arrived (v := v) hi
          refine absurd (Enters.of_trigger (fun e => ?_) hb) (hno _)
          rw [writeInput_eq hi hw, arrive_last (c := c.wrote i v) hr hp]
        · rw [writeInput_eq hi hw, arrive_waiting (c := c.wrote i v) hr hp hn] at h
          cases h

/-- **A refused input.**  A write of an input that fails, at any moment of any run, without having
    started the component, leaves everything as it was, unless it is the counter that refuses: then
    the value is in the store, and the component still waits.  In a run on an accepted circuit in
    which no input is counted by hand, the counter never refuses. -/
theorem Program.Visits.writeInput_leaves {levels below : Nat} {p : Program α} {circuit : Circuit}
    {config : Config} {m : Moment} {next : Option Request}
    (hv : p.Visits levels (.start circuit config) next m)
    (h : (Request.writeInput id l v).perform (enterWithin below) m.state = .error f c')
    (hno : ∀ x, ¬ Enters (enterWithin below) (fun e => (Request.writeInput id l v).perform e)
      m.state x) :
    (c' = m.state ∨ ∃ i r, m.state.inputSignal id l = .ok i ∧
      m.state.registry.get? id = some r ∧ r.stage = .created ∧ r.pending = 0 ∧
      f = .refused (m.state.defect id .counterUnderflow) ∧ c' = m.state.wrote i v) ∧
    ∀ d : CircuitDescription, d.accept = .ok circuit → circuit.CountersFit →
      circuit.Only Request.NoCount → p.Only Request.NoCount → c' = m.state := by
  have hfails := writeInput_fails h hno
  constructor
  · refine hfails.imp_right ?_
    rintro ⟨i, r, hi, hr, hp, hf, hc⟩
    obtain ⟨r', -, hr', -, -, hs, -⟩ := of_inputSignal hi
    obtain rfl : r = r' := by rw [hr] at hr'; exact Option.some.inj hr'
    exact ⟨i, r, hi, hr, hs, hp, hf, hc⟩
  · intro d hd hfit hbodies honly
    have hm : m.Regular := hv.regular hd hfit hbodies honly
    rcases hfails with hc | ⟨i, r, hi, hr, hp, -⟩
    · exact hc
    · -- A component that waits and misses no input is what regular runs never come to.
      obtain ⟨r', -, hr', -, -, hs, -⟩ := of_inputSignal hi
      obtain rfl : r = r' := by rw [hr] at hr'; exact Option.some.inj hr'
      exact absurd hs ((hm.settled.records id r hr).agrees.mp hp)

/-- The main component of the small circuit is created, and its inputs are counted by hand. -/
def relayDrain : Program Unit :=
  .ask (.create ⟨0⟩ ⟨0⟩ 1 "main" none) fun _ =>
  .ask (.countInput ⟨0⟩) fun _ =>
  .ask (.countInput ⟨0⟩) fun _ => .done ()

/-- The main component waits, and misses no input. -/
def relayDrained : Computation := (relayCreated.counted ⟨0⟩ 1).counted ⟨0⟩ 0

theorem relayDrain_visits :
    relayDrain.Visits 2 (.start relay .diagnostic) none ⟨[], relayDrained⟩ :=
  .answered (c := relayCreated) rfl (.answered (c := relayCreated.counted ⟨0⟩ 1) rfl
    (.answered (c := relayDrained) rfl .done))

/-- A write of its first input is refused, and no body is entered for it. -/
theorem relayDrained_refuses : (∀ enter, writeInput enter ⟨0⟩ 1 5 relayDrained
      = .error (.refused (relayDrained.defect ⟨0⟩ .counterUnderflow)) (relayDrained.wrote 2 5)) ∧
    ∀ enter x, ¬ Enters enter (fun e => writeInput e ⟨0⟩ 1 5) relayDrained x := by
  have hact : ∀ enter, writeInput enter ⟨0⟩ 1 5 relayDrained
      = .error (.refused (relayDrained.defect ⟨0⟩ .counterUnderflow)) (relayDrained.wrote 2 5) :=
    fun _ => writeInput_underflow (w := false) rfl rfl rfl rfl
  exact ⟨hact, fun _ _ => not_enters fun _ _ => (hact _).trans (hact _).symm⟩

/-- There the counter refuses, and the value stays. -/
theorem Program.Visits.writeInput_leaves_relay :
    ∃ i r, relayDrained.inputSignal ⟨0⟩ 1 = .ok i ∧ relayDrained.registry.get? ⟨0⟩ = some r ∧
      r.stage = .created ∧ r.pending = 0 ∧ relayDrained.wrote 2 5 = relayDrained.wrote i 5 := by
  rcases (writeInput_leaves relayDrain_visits (relayDrained_refuses.1 (enterWithin 2))
    (relayDrained_refuses.2 (enterWithin 2))).1 with hsame | ⟨i, r, hi, hr, hs, hp, -, hc⟩
  · have hwritten := congrArg (fun c : Computation => c.store.isWritten? 2) hsame
    exact absurd hwritten (by decide)
  · exact ⟨i, r, hi, hr, hs, hp, hc⟩

/-- **A refused input can stay behind**: after all inputs of a component were counted by hand, a
    write of one is refused and starts no body, but the signal is written from then on, and the
    trace has an event more. -/
theorem input_kept_uncounted :
    relayDescription.accept = .ok relay ∧
    relayDrain.Visits 2 (.start relay .diagnostic) none ⟨[], relayDrained⟩ ∧
    ∃ c', (Request.writeInput ⟨0⟩ 1 5).perform (enterWithin 2) relayDrained
        = .error (.refused (.graphDefect ⟨0⟩ "main" .counterUnderflow)) c' ∧
      (∀ x, ¬ Enters (enterWithin 2) (fun e => (Request.writeInput ⟨0⟩ 1 5).perform e)
        relayDrained x) ∧
      relayDrained.store.isWritten? 2 = some false ∧ c'.store.isWritten? 2 = some true ∧
      c'.trace.toList = relayDrained.trace.toList ++ [.signalWritten 2] :=
  ⟨accept_relay, relayDrain_visits, relayDrained.wrote 2 5, relayDrained_refuses.1 _,
    relayDrained_refuses.2 _, by decide, by decide, by decide⟩

end WriteInput

/-! ## Creating children -/

section CreateChild

variable {id : Handle} {t : TemplateId} {start : Nat} {label : String}

/-- A creation that fails without having started the component changes nothing. -/
theorem create_fails {parent : Option Handle}
    (h : create enter id t start label parent c = .error f c')
    (hno : ∀ x, ¬ Enters enter (fun e => create e id t start label parent) c x) :
    c' = c ∧
    (c.circuit.templates.shape? t = none ∧
        f = .refused (.graphDefect id label (.unknownTemplate t)) ∨
      (c.circuit.templates.shape? t).isSome ∧ c.registry.capacity ≤ id.index ∧
        f = .refused (c.defect id (.componentOutOfRange c.registry.capacity)) ∨
      (c.circuit.templates.shape? t).isSome ∧ (c.registry.get? id).isSome ∧
        f = .refused (c.defect id .duplicateComponent)) := by
  cases ht : c.circuit.templates.shape? t with
  | none =>
    cases (create_unknown ht).symm.trans h
    exact ⟨rfl, .inl ⟨rfl, rfl⟩⟩
  | some shape =>
    cases hr : c.registry.create id
        (Component.fresh t start shape.inputCounter shape.slots label parent) with
    | error d =>
      cases (create_refused ht hr).symm.trans h
      refine ⟨rfl, .inr ?_⟩
      unfold Registry.create at hr
      split at hr
      · rename_i hcap
        cases hr
        exact .inl ⟨rfl, hcap, rfl⟩
      split at hr
      · rename_i hused
        cases hr
        exact .inr ⟨rfl, hused, rfl⟩
      · cases hr
    | ok reg =>
      by_cases hn : shape.inputs = 0
      · obtain ⟨body, hb⟩ := startable_enrolled ht hr hn
        refine absurd (Enters.of_trigger (fun e => ?_) hb) (hno _)
        rw [create_ok ht hr, if_pos hn]
      · rw [create_ok ht hr, if_neg hn] at h
        cases h

/-- The slot that was given a handle holds it. -/
theorem child_kept {parent child : Handle} {slot : Nat} {r : Component}
    (hr : c.registry.get? parent = some r) (hs : slot < r.slots.size) :
    (c.kept parent slot child).child parent slot = .ok child := by
  have hget : (c.kept parent slot child).registry.get? parent
      = some { r with slots := r.slots.setIfInBounds slot (some child) } :=
    (Registry.sets_modify hr _).self
  unfold Computation.child
  rw [component_eq hget]
  simp [hs]

/-- Keeping a handle changes neither which handles are in use nor what they are called. -/
theorem get?_kept_isSome (parent child id : Handle) (slot : Nat) :
    ((c.kept parent slot child).registry.get? id).isSome = (c.registry.get? id).isSome := by
  show ((c.registry.modify parent _).get? id).isSome = _
  rw [Registry.get?_modify]
  split
  · rename_i he
    rw [Option.isSome_map, he]
  · rfl

theorem defect_kept (parent child id : Handle) (slot : Nat) (d : GraphDefect) :
    (c.kept parent slot child).defect id d = c.defect id d := by
  have hlabel : (c.registry.modify parent fun r =>
      { r with slots := r.slots.setIfInBounds slot (some child) }).label id
      = c.registry.label id := by
    unfold Registry.label
    rw [Registry.get?_modify]
    by_cases he : parent = id
    · subst he
      rw [if_pos rfl]
      cases c.registry.get? parent <;> rfl
    · rw [if_neg he]
  show Refusal.graphDefect id _ d = Refusal.graphDefect id _ d
  rw [show (c.kept parent slot child).registry.label id = c.registry.label id from hlabel]

/-- **A refused child.**  A creation of a child that fails without having started it leaves
    everything as it was if the parent is unknown or has no such slot.  If the child itself is
    refused, for its template or its handle, then the slot of the parent holds that handle all the
    same, and nothing else has changed. -/
theorem createChild_leaves {parent child : Handle} {slot : Nat}
    (h : (Request.createChild parent slot child t start label).perform enter c = .error f c')
    (hno : ∀ x, ¬ Enters enter
      (fun e => (Request.createChild parent slot child t start label).perform e) c x) :
    (c' = c ∧
      (c.registry.get? parent = none ∧ f = .refused (c.defect parent .unknownComponent) ∨
        ∃ r, c.registry.get? parent = some r ∧ r.slots.size ≤ slot ∧
          f = .refused (c.defect parent (.slotOutOfRange slot r.slots.size)))) ∨
    (∃ r, c.registry.get? parent = some r ∧ slot < r.slots.size) ∧
      c' = c.kept parent slot child ∧ c'.child parent slot = .ok child ∧
      (c.circuit.templates.shape? t = none ∧
          f = .refused (.graphDefect child label (.unknownTemplate t)) ∨
        (c.circuit.templates.shape? t).isSome ∧ c.registry.capacity ≤ child.index ∧
          f = .refused (c.defect child (.componentOutOfRange c.registry.capacity)) ∨
        (c.circuit.templates.shape? t).isSome ∧ (c.registry.get? child).isSome ∧
          f = .refused (c.defect child .duplicateComponent)) := by
  have h : (keepChild parent slot child >>= fun _ =>
      create enter child t start label (some parent)) c = .error f c' := h
  cases hr : c.registry.get? parent with
  | none =>
    cases (bind_error (keepChild_unknown hr)).symm.trans h
    exact .inl ⟨rfl, .inl ⟨rfl, rfl⟩⟩
  | some r =>
    rcases Nat.lt_or_ge slot r.slots.size with hs | hs
    · -- The handle is in the slot by the time the child is looked at.
      have hkept : keepChild parent slot child c = .ok () (c.kept parent slot child) :=
        keepChild_ok hr hs
      have hcreate : create enter child t start label (some parent) (c.kept parent slot child)
          = .error f c' := (bind_ok hkept).symm.trans h
      have hcap : (c.kept parent slot child).registry.capacity = c.registry.capacity :=
        Registry.capacity_modify _ _ _
      obtain ⟨rfl, hwhy⟩ := create_fails hcreate fun x hx =>
        hno x fun g s => (hx g s).imp fun _ hfail => (bind_ok hkept).trans hfail
      rw [hcap, defect_kept, defect_kept, get?_kept_isSome] at hwhy
      exact .inr ⟨⟨r, rfl, hs⟩, rfl, child_kept hr hs, hwhy⟩
    · cases (bind_error (keepChild_outside hr hs)).symm.trans h
      exact .inl ⟨rfl, .inr ⟨r, rfl, hs, rfl⟩⟩

/-- A child of the small circuit's main component, under a handle that was not declared, is refused
    without any body. -/
theorem relayCreated_refuses :
    (∀ enter, createChild enter ⟨0⟩ 0 ⟨7⟩ ⟨1⟩ 4 "main.pulse" relayCreated
      = .error (.refused (relayCreated.defect ⟨7⟩ (.componentOutOfRange 2)))
        (relayCreated.kept ⟨0⟩ 0 ⟨7⟩)) ∧
    ∀ enter x, ¬ Enters enter (fun e => createChild e ⟨0⟩ 0 ⟨7⟩ ⟨1⟩ 4 "main.pulse")
      relayCreated x :=
  ⟨fun _ => rfl, fun _ _ => not_enters fun _ _ => rfl⟩

/-- The main component's slot holds the handle then. -/
theorem createChild_leaves_relay :
    (relayCreated.kept ⟨0⟩ 0 ⟨7⟩).child ⟨0⟩ 0 = .ok ⟨7⟩ := by
  rcases createChild_leaves (relayCreated_refuses.1 (enterWithin 2))
    (relayCreated_refuses.2 (enterWithin 2)) with ⟨hsame, -⟩ | ⟨-, -, hchild, -⟩
  · have hslot := congrArg (fun c : Computation => (c.registry.get? ⟨0⟩).map Component.slots) hsame
    exact absurd hslot (by decide)
  · exact hchild

/-- The main component of the small circuit, created by hand. -/
def relayAlone : Program Unit := .ask (.create ⟨0⟩ ⟨0⟩ 1 "main" none) fun _ => .done ()

/-- **A refused child can leave its handle behind**: the slot of the main component held nothing, a
    child under a handle beyond the declared ones is refused, and from then on the slot names that
    component, which does not exist. -/
theorem handle_kept_unborn :
    relayDescription.accept = .ok relay ∧
    relayAlone.Visits 2 (.start relay .diagnostic) none ⟨[], relayCreated⟩ ∧
    ∃ c', (Request.createChild ⟨0⟩ 0 ⟨7⟩ ⟨1⟩ 4 "main.pulse").perform (enterWithin 2) relayCreated
        = .error (.refused (.graphDefect ⟨7⟩ "<component #7>" (.componentOutOfRange 2))) c' ∧
      (∀ x, ¬ Enters (enterWithin 2)
        (fun e => (Request.createChild ⟨0⟩ 0 ⟨7⟩ ⟨1⟩ 4 "main.pulse").perform e) relayCreated x) ∧
      relayCreated.child ⟨0⟩ 0 = .error (relayCreated.defect ⟨0⟩ (.unallocatedSubcomponent 0)) ∧
      c'.child ⟨0⟩ 0 = .ok ⟨7⟩ ∧ c'.registry.get? ⟨7⟩ = none :=
  ⟨accept_relay, .answered (c := relayCreated) rfl .done, relayCreated.kept ⟨0⟩ 0 ⟨7⟩,
    relayCreated_refuses.1 _, relayCreated_refuses.2 _, rfl, rfl, rfl⟩

end CreateChild

end CircuitWitness
