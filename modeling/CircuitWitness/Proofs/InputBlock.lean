import CircuitWitness.Proofs.Calculation
import CircuitWitness.Proofs.Run
import CircuitWitness.Proofs.Store
import CircuitWitness.Proofs.Woven
/-
  The block of the main inputs, and the store.

  The check of a description compares the store with the number of signals that the main template
  declares.  A template is meant to count its outputs and inputs among its signals; if it does, the
  input block lies inside the store (`CircuitDescription.inputsInside`), and then no main input is
  ever written outside of it, whether inputs are assigned by address, by name or in order.  A
  template that declares fewer signals than it has inputs passes the check as well, and its inputs
  are written out of range.

  An assignment that completes the block runs the main component, whose body may read and write
  what it likes.  So the statement is about the part that is the engine's own: `Contained` says that
  an action goes out of range only inside a body that it entered.  What carries it through a row of
  assignments is that the room in the store is the same at every moment (`Path.size_eq`).
-/

namespace CircuitWitness

open CircuitWitness.Action

variable {α β : Type} {π : Policy} {enter : Enter} {c c' : Computation}

/-! ## The store keeps its size -/

/-- No step makes the store larger or smaller. -/
theorem Step.size_eq {m m' : Moment} (h : Step π m m') :
    m'.state.store.size = m.state.store.size := by
  cases h with
  | write | input | inputRun | assign => exact SignalStore.size_write _ _ _
  | _ => rfl

theorem Path.size_eq {m m' : Moment} (h : Path π m m') :
    m'.state.store.size = m.state.store.size :=
  h.keeps (I := fun m' => m'.state.store.size = m.state.store.size)
    (fun _ _ hi hs => hs.size_eq.trans hi) rfl

theorem Computation.size_start (circuit : Circuit) (config : Config) :
    (Computation.start circuit config).store.size = circuit.totalSignals := by
  unfold Computation.start
  rw [SignalStore.size_write, SignalStore.size_allocate]

/-! ## Going out of range -/

/-- An action goes out of range only inside a body that it entered. -/
def Contained (enter : Enter) (act : Enter → Action α) (c : Computation) : Prop :=
  ∀ c', act enter c = .error .outOfRange c' →
    ∃ x s, Enters enter act c x ∧ x.Fails enter .outOfRange s

namespace Contained

/-- An action that enters no body. -/
theorem still {act : Action α} (h : ∀ c', act c ≠ .error .outOfRange c') :
    Contained enter (fun _ => act) c := fun c' hr => absurd hr (h c')

/-- First something that does not depend on bodies, and then an action. -/
theorem step {act act' : Enter → Action α} (hact : ∀ e, act e c = act' e c')
    (h : Contained enter act' c') : Contained enter act c := by
  intro c₁ hr
  obtain ⟨x, s, hx, hfail⟩ := h c₁ ((hact enter).symm.trans hr)
  exact ⟨x, s, fun f t => by rw [hact]; exact hx f t, hfail⟩

/-- An action whose whole result is known. -/
theorem of_eq {act : Enter → Action α} {res : EStateM.Result Fault Computation α}
    (hres : ∀ e, act e c = res) (h : ∀ c', res ≠ .error .outOfRange c') :
    Contained enter act c := fun c' hr => absurd ((hres enter).symm.trans hr) (h c')

/-- One of two actions. -/
theorem ite {p : Prop} [Decidable p] {x y : Enter → Action α} (hx : Contained enter x c)
    (hy : Contained enter y c) : Contained enter (fun e => if p then x e else y e) c := by
  by_cases h : p
  · simpa only [if_pos h] using hx
  · simpa only [if_neg h] using hy

/-- Starting a component: only its body can go out of range. -/
theorem trigger (id : Handle) : Contained enter (fun e => trigger e id) c := by
  intro c' hr
  have hr : Action.trigger enter id c = .error .outOfRange c' := hr
  cases hb : c.startable id with
  | error e => cases (trigger_refused hb).symm.trans hr
  | ok body =>
    have hx : Enters enter (fun e => Action.trigger e id) c ⟨body, id, c.begun id⟩ :=
      enters_trigger.mpr ⟨body, hb, rfl⟩
    cases hin : enter body id (c.begun id) with
    | ok u d => cases ((trigger_eq hb).trans (runBody_ok hin)).symm.trans hr
    | error f d =>
      cases ((trigger_eq hb).trans (runBody_error hin)).symm.trans hr
      exact ⟨_, _, hx, hin⟩

/-- First one action, and then another. -/
theorem bind {x : Enter → Action α} {f : α → Enter → Action β} (hs : Schematic x)
    (hx : Contained enter x c)
    (hf : ∀ a c', x enter c = .ok a c' → Contained enter (f a) c') :
    Contained enter (fun e => x e >>= fun a => f a e) c := by
  intro c₁ hr
  have hr : (x enter >>= fun a => f a enter) c = .error .outOfRange c₁ := hr
  cases hfirst : x enter c with
  | error g d =>
    cases (bind_error hfirst).symm.trans hr
    obtain ⟨y, s, hy, hfail⟩ := hx _ hfirst
    exact ⟨y, s, hy.left, hfail⟩
  | ok a d =>
    obtain ⟨y, s, hy, hfail⟩ := hf a d hfirst c₁ ((bind_ok hfirst).symm.trans hr)
    exact ⟨y, s, hs.congr.enters_bind.mpr (.inr ⟨a, d, hfirst, hy⟩), hfail⟩

end Contained

/-! ## Running the main component -/

/-- To create a component goes out of range in its body only, as nothing is looked up in the
    store. -/
theorem contained_create (id : Handle) (t : TemplateId) (start : Nat) (label : String)
    (parent : Option Handle) : Contained enter (fun e => create e id t start label parent) c := by
  cases ht : c.circuit.templates.shape? t with
  | none => exact .of_eq (fun _ => create_unknown ht) fun c' h => by cases h
  | some shape =>
    cases hr : c.registry.create id
        (Component.fresh t start shape.inputCounter shape.slots label parent) with
    | error d => exact .of_eq (fun _ => create_refused ht hr) fun c' h => by cases h
    | ok reg =>
      by_cases hn : shape.inputs = 0
      · exact .step (fun e => by rw [create_ok ht hr, if_pos hn]) (.trigger id)
      · exact .of_eq (fun e => by rw [create_ok ht hr, if_neg hn]) fun c' h => by cases h

theorem countInput_contained (id : Handle) (c' : Computation) :
    countInput id c ≠ .error .outOfRange c' := by
  intro h
  cases hr : c.registry.get? id with
  | none => cases (countInput_none hr).symm.trans h
  | some r =>
    cases hp : r.pending with
    | zero => cases (countInput_underflow hr hp).symm.trans h
    | succ n => cases (countInput_ok hr hp).symm.trans h

theorem contained_arrive (id : Handle) (i : Nat) :
    Contained enter (fun e => arrive e id i) c := by
  refine .bind (Woven.countInput id).schematic (.still (countInput_contained id)) fun n c₁ _ => ?_
  refine .bind (.quiet (.record fun outer => by cases outer <;> rfl))
    (.still fun c' h => by cases h) fun _ c₂ _ => ?_
  exact .ite (.trigger id) (.still fun c' h => by cases h)

theorem contained_arriveAll (signals : List Nat) :
    Contained enter (fun e => arriveAll e signals) c := by
  induction signals generalizing c with
  | nil => exact .still fun c' h => by cases h
  | cons i rest ih =>
    exact .bind (Woven.arrive .mainComponent i).schematic (contained_arrive .mainComponent i)
      fun _ _ _ => ih

/-- Running the main component looks at no signal before its body does. -/
theorem contained_runMain : Contained enter (fun e => runMain e) c := by
  have hact : ∀ e, runMain e c = (create e .mainComponent c.circuit.mainTemplate
      c.circuit.mainSignalStart "main" none >>= fun _ => arriveAll e
        (List.range' c.circuit.mainInputStart c.circuit.mainInputCount)) c := fun _ => rfl
  exact .step hact (.bind (Woven.create _ _ _ _ _).schematic (contained_create _ _ _ _ _)
    fun _ _ _ => contained_arriveAll _)

/-! ## Assigning main inputs -/

/-- The block of the main inputs lies inside the store. -/
def Circuit.InputsInside (circuit : Circuit) : Prop :=
  circuit.mainInputStart + circuit.mainInputCount ≤ circuit.totalSignals

/-- The declared inputs lie among the main inputs, and these have room in the store. -/
structure Computation.Roomy (c : Computation) : Prop where
  fits : c.circuit.InputsFit
  room : c.circuit.mainInputStart + c.circuit.mainInputCount ≤ c.store.size

/-- The block stays inside of the store. -/
theorem Path.roomy {m m' : Moment} (h : Path π m m') (hm : m.state.Roomy) : m'.state.Roomy := by
  have hcirc := h.circuit_eq.1
  exact ⟨hcirc ▸ hm.fits, by rw [hcirc, h.size_eq]; exact hm.room⟩

/-- A signal that an address stands for is in the store. -/
theorem Computation.Roomy.lt_size (h : c.Roomy) {hash : UInt64} {index i : Nat}
    (hi : c.inputSlot hash index = .ok i) : i < c.store.size := by
  obtain ⟨s, -, hs, hindex, rfl⟩ := Computation.of_inputSlot hi
  have hmem := List.mem_range'_1.mp (h.fits.slot_mem hs hindex)
  have hroom := h.room
  omega

/-- An assignment writes inside of the block, and the block is inside of the store. -/
theorem contained_assignByHash (h : c.Roomy) (hash : UInt64) (index : Nat) (v : Scalar) :
    Contained enter (fun e => assignByHash e hash index v) c := by
  cases hi : c.inputSlot hash index with
  | error e => exact .of_eq (fun _ => assignByHash_refused hi) fun c' h => by cases h
  | ok i =>
    obtain ⟨w, hw⟩ := SignalStore.isWritten?_of_lt (h.lt_size hi)
    cases w with
    | true => exact .of_eq (fun _ => assignByHash_twice hi hw) fun c' h => by cases h
    | false =>
      by_cases hlast : c.pendingInputs - 1 = 0
      · exact .step (fun e => by rw [assignByHash_ok hi hw, if_pos hlast]) contained_runMain
      · exact .of_eq (fun e => by rw [assignByHash_ok hi hw, if_neg hlast]) fun c' h => by cases h

theorem contained_assignByName (h : c.Roomy) (name : String) (index : Nat) (v : Scalar) :
    Contained enter (fun e => assignByName e name index v) c := by
  cases hs : c.circuit.inputs.findName? name with
  | none => exact .of_eq (fun _ => assignByName_unknown hs) fun c' h => by cases h
  | some s => exact .step (fun _ => assignByName_known hs) (contained_assignByHash h _ index v)

/-- A row of elements: whatever bodies were run on the way, the next element has room. -/
theorem contained_assignList {levels : Nat} {s : List Handle} (l : List Element)
    (hup : Moment.Upright ⟨s, c⟩) (h : c.Roomy) :
    Contained (enterWithin levels) (fun e => assignList e l) c := by
  induction l generalizing c with
  | nil => exact .still fun c' h => by cases h
  | cons x rest ih =>
    refine .bind (Woven.assignByName x.name x.index x.value).schematic
      (contained_assignByName h x.name x.index x.value) fun _ c' hr => ?_
    have hpath : Path .any ⟨s, c⟩
        ⟨s, (assignByName (enterWithin levels) x.name x.index x.value).after c⟩ :=
      (Request.follows_any levels (.assignByName x.name x.index x.value) hup).1
    rw [after_ok hr] at hpath
    exact ih (hpath.upright hup) (hpath.roomy h)

/-- A request that assigns main inputs. -/
def Request.AssignsInputs : Request → Prop
  | .assignByHash _ _ _ | .assignByName _ _ _ | .assignAll _ => True
  | _ => False

/-- So a request that assigns inputs goes out of range in no place but a body. -/
theorem Request.contained {levels : Nat} {m : Moment} {q : Request} (hq : q.AssignsInputs)
    (hup : m.Upright) (h : m.state.Roomy) :
    Contained (enterWithin levels) (fun e => q.perform e) m.state := by
  cases q with
  | assignByHash hash index v => exact contained_assignByHash h hash index v
  | assignByName name index v => exact contained_assignByName h name index v
  | assignAll inputs =>
    exact .step (fun _ => congrFun (assignAll_eq inputs) m.state)
      (contained_assignList inputs.elements hup h)
  | _ => exact absurd hq not_false

/-! ## Writing the main inputs in order -/

/-- A row of values for which there is room is written. -/
theorem setSignals_inside (values : List Scalar) {i : Nat}
    (h : i + values.length ≤ c.store.size) : ∃ c', setSignals i values c = .ok () c' := by
  induction values generalizing i c with
  | nil => exact ⟨c, rfl⟩
  | cons v rest ih =>
    rw [List.length_cons] at h
    obtain ⟨w, hw⟩ := SignalStore.isWritten?_of_lt (s := c.store) (i := i) (by omega)
    have hrest : i + 1 + rest.length ≤ (c.wrote i v).store.size := by
      rw [show (c.wrote i v).store.size = c.store.size from SignalStore.size_write _ _ _]
      omega
    obtain ⟨c', hc'⟩ := ih hrest
    exact ⟨c', (bind_ok (setSignal_ok hw)).trans hc'⟩

/-- A row of values for which there is no room goes out of range. -/
theorem setSignals_outside (values : List Scalar) {i : Nat} (hne : values ≠ [])
    (h : c.store.size < i + values.length) :
    ∃ c', setSignals i values c = .error .outOfRange c' := by
  induction values generalizing i c with
  | nil => exact absurd rfl hne
  | cons v rest ih =>
    rw [List.length_cons] at h
    cases hw : c.store.isWritten? i with
    | none => exact ⟨c, bind_error (setSignal_none hw)⟩
    | some w =>
      have hi := SignalStore.lt_of_isWritten? hw
      have hrest : (c.wrote i v).store.size < i + 1 + rest.length := by
        rw [show (c.wrote i v).store.size = c.store.size from SignalStore.size_write _ _ _]
        omega
      -- The signal itself is in the store, so it is one of the others that is not.
      have hmore : rest ≠ [] := by
        rintro rfl
        simp only [List.length_nil] at h
        omega
      obtain ⟨c', hc'⟩ := ih hmore hrest
      exact ⟨c', (bind_ok (setSignal_ok hw)).trans hc'⟩

variable {values : List Scalar}

/-- Too few values or too many are refused before any of them is written. -/
theorem feedOrdered_refused (h : values.length ≠ c.circuit.mainInputCount) :
    ∃ e, feedOrdered values c = .error (.refused e) c := by
  unfold feedOrdered
  rw [get_bind]
  rcases Nat.lt_or_gt_of_ne h with hlt | hgt
  · rw [if_pos hlt]
    exact ⟨_, rfl⟩
  · rw [if_neg (Nat.lt_asymm hgt), if_pos hgt]
    exact ⟨_, rfl⟩

/-- As many values as there are main inputs are written, and then the main component is run. -/
theorem feedOrdered_of_length (h : values.length = c.circuit.mainInputCount) :
    feedOrdered values c = (setSignals c.circuit.mainInputStart values >>= fun _ => fun c =>
      runMain (enterWithin c.nesting) { c with pendingInputs := 0 }) c := by
  unfold feedOrdered
  rw [get_bind, if_neg (Nat.not_lt.mpr (Nat.le_of_eq h.symm)),
    if_neg (Nat.not_lt.mpr (Nat.le_of_eq h)), get_bind]
  rfl

/-! ## Accepted circuits -/

namespace CircuitDescription

variable {d : CircuitDescription} {circuit : Circuit}

/-- A template that counts its inputs among its signals has its inputs in the store. -/
theorem inputsInside (hd : d.accept = .ok circuit)
    (hshape : circuit.mainShape.inputEnd ≤ circuit.mainShape.signals) : circuit.InputsInside := by
  obtain ⟨heq, -, hcheck⟩ := of_accept hd
  have hroom := (room_of_check hcheck).1
  rw [← heq] at hroom
  have hend : circuit.mainShape.inputEnd = circuit.mainShape.outputs + circuit.mainShape.inputs :=
    rfl
  show circuit.mainSignalStart + circuit.mainShape.outputs + circuit.mainShape.inputs ≤ _
  omega

end CircuitDescription

/-- A computation has room for the main inputs from the start if their block lies inside the
    store. -/
theorem Computation.roomy_start {d : CircuitDescription} {circuit : Circuit} {config : Config}
    (hd : d.accept = .ok circuit) (h : circuit.InputsInside) :
    (Computation.start circuit config).Roomy :=
  ⟨CircuitDescription.inputsFit hd, by rw [Computation.size_start]; exact h⟩

/-- **Main inputs stay inside the store.**  Take an accepted circuit.

    * If its main template counts outputs and inputs among its signals, the block of the main
      inputs lies inside the store.
    * Where it does, no assignment of main inputs goes out of range, at any moment of any run, but
      in a body that it enters; and of a fresh computation's main inputs in order, too few or too
      many are refused, and a row of the right length is written before the main component runs,
      which again goes out of range in a body only.
    * Where it does not, every row of the right length goes out of range. -/
theorem CircuitDescription.accept_inputs_inside {d : CircuitDescription} {circuit : Circuit}
    (hd : d.accept = .ok circuit) :
    (circuit.mainShape.inputEnd ≤ circuit.mainShape.signals → circuit.InputsInside) ∧
    (circuit.InputsInside →
      (∀ {α : Type} {levels : Nat} {p : Program α} {config : Config} {next : Option Request}
        {m : Moment}, p.Visits levels (.start circuit config) next m →
        ∀ (below : Nat) (q : Request), q.AssignsInputs →
          Contained (enterWithin below) (fun enter => q.perform enter) m.state) ∧
      ∀ (config : Config) (values : List Scalar),
        (values.length ≠ circuit.mainInputCount →
          ∃ e, circuit.calculateOrdered config values = .error (.refused e)) ∧
        (values.length = circuit.mainInputCount →
          ∃ c, setSignals circuit.mainInputStart values (.start circuit config) = .ok () c ∧
            feedOrdered values (.start circuit config)
              = runMain (enterWithin c.nesting) { c with pendingInputs := 0 } ∧
            Contained (enterWithin c.nesting) (fun enter => runMain enter)
              { c with pendingInputs := 0 })) ∧
    (¬ circuit.InputsInside → 0 < circuit.mainInputCount →
      ∀ (config : Config) (values : List Scalar), values.length = circuit.mainInputCount →
        circuit.calculateOrdered config values = .error .outOfRange) := by
  refine ⟨CircuitDescription.inputsInside hd, fun hinside => ⟨?_, fun config values => ⟨?_, ?_⟩⟩,
    fun houtside hpos config values hlen => ?_⟩
  · intro α levels p config next m hv below q hq
    have hup := Moment.upright_start circuit config
    have hpath : Path .any (.start circuit config) m := hv.path_any hup
    have hroomy : m.state.Roomy := hpath.roomy (Computation.roomy_start hd hinside)
    exact Request.contained hq (hpath.upright hup) hroomy
  · intro hlen
    obtain ⟨e, he⟩ := feedOrdered_refused (c := .start circuit config) hlen
    refine ⟨e, ?_⟩
    unfold Circuit.calculateOrdered final
    rw [he]
    rfl
  · intro hlen
    have hroom : circuit.mainInputStart + values.length
        ≤ (Computation.start circuit config).store.size := by
      rw [Computation.size_start, hlen]
      exact hinside
    obtain ⟨c, hc⟩ := setSignals_inside values hroom
    exact ⟨c, hc, (feedOrdered_of_length hlen).trans (bind_ok hc), contained_runMain⟩
  · have hroom : (Computation.start circuit config).store.size
        < circuit.mainInputStart + values.length := by
      rw [Computation.size_start, hlen]
      exact Nat.not_le.mp houtside
    have hne : values ≠ [] := by
      rintro rfl
      exact absurd hlen (Nat.ne_of_lt hpos)
    obtain ⟨c, hc⟩ := setSignals_outside values hne hroom
    have hfeed : feedOrdered values (.start circuit config) = .error .outOfRange c :=
      (feedOrdered_of_length hlen).trans (bind_error hc)
    unfold Circuit.calculateOrdered final
    rw [hfeed]
    rfl

/-- In the small circuit the two inputs lie inside the store.  While the main component runs there,
    no assignment goes out of range by itself; and two values in order are written. -/
theorem CircuitDescription.accept_inputs_inside_relay :
    relayDescription.accept = .ok relay ∧ relay.InputsInside ∧
    (∀ (below : Nat) (inputs : InputValues),
      Contained (enterWithin below) (fun enter => assignAll enter inputs) relayInside) ∧
    ∃ c, setSignals 2 [5, 7] (.start relay .diagnostic) = .ok () c :=
  have hrelay := accept_inputs_inside accept_relay
  have hinside : relay.InputsInside := hrelay.1 (by decide)
  have hsafe := hrelay.2.1 hinside
  ⟨accept_relay, hinside,
    fun below inputs => hsafe.1 relay_visits below (.assignAll inputs) trivial,
    ((hsafe.2 .diagnostic [5, 7]).2 rfl).imp fun _ h => h.1⟩

/-! ### Inputs without room -/

/-- A circuit whose main template has one output and two inputs, and declares one signal. -/
def crampedDescription : CircuitDescription where
  name := "cramped"
  totalSignals := 2
  templates := ⟨#[some ⟨⟨"Cramped", 1, 2, 1, 0⟩, fun _ => pure (), none⟩]⟩

def cramped : Circuit := ⟨crampedDescription, ⟨"Cramped", 1, 2, 1, 0⟩⟩

/-- It is accepted although its inputs, the signals 2 and 3, are not in the store, and so the values
    of its main inputs go out of range. -/
theorem CircuitDescription.accept_inputs_outside : crampedDescription.accept = .ok cramped ∧
    cramped.mainInputStart + cramped.mainInputCount = 4 ∧ cramped.totalSignals = 2 ∧
    ¬ cramped.mainInputStart + cramped.mainInputCount ≤ cramped.totalSignals ∧
    cramped.calculateOrdered {} [3, 4] = .error .outOfRange :=
  ⟨rfl, rfl, rfl, by decide, rfl⟩

end CircuitWitness
