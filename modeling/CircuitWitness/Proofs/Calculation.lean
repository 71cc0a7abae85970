import Mathlib.Data.List.Perm.Subperm
import CircuitWitness.Proofs.Intake
/-
  What a calculation with inputs by name comes to.

  The intake says which elements are taken and which is refused.  If the last main input is among
  those taken, the body of the main component begins right after it, in a state that is known but
  for the trace (`Circuit.Begins`); and the calculation ends as that body does, unless there is a
  further element, which is refused.  If not, no body begins, and the calculation is refused.

  The body may ask for anything.  What is needed of it is little and holds of every path of steps:
  the circuit stays, no main input is to come, and the main component is there.
-/

namespace CircuitWitness

open CircuitWitness.Action

/-! ## Elements in a row -/

namespace Action

/-- Assign elements one after another. -/
def assignList (enter : Enter) : List Element → Action Unit
  | [] => return ()
  | x :: rest => do
    assignByName enter x.name x.index x.value
    assignList enter rest

/-- Refuse if something is wrong. -/
def answer : Option Refusal → Action Unit
  | none => return ()
  | some e => refuse e

variable {enter : Enter}

theorem assignElements_eq (name : String) (index : Nat) (values : List Scalar) :
    assignElements enter name index values = assignList enter (elementsFrom name index values) := by
  induction values generalizing index with
  | nil => rfl
  | cons v rest ih =>
    show (assignByName enter name index v >>= fun _ => assignElements enter name (index + 1) rest)
      = _
    rw [ih]
    rfl

theorem assignList_append (l l' : List Element) :
    assignList enter (l ++ l') = (assignList enter l >>= fun _ => assignList enter l') := by
  induction l with
  | nil => exact (pure_bind _ _).symm
  | cons x l ih =>
    show (assignByName enter x.name x.index x.value >>= fun _ => assignList enter (l ++ l')) = _
    rw [ih]
    exact (bind_assoc ..).symm

/-- An assignment is its elements in a row. -/
theorem assignAll_eq (inputs : InputValues) :
    assignAll enter inputs = assignList enter inputs.elements := by
  unfold assignAll InputValues.elements
  induction inputs.entries with
  | nil => rfl
  | cons entry rest ih =>
    obtain ⟨name, values⟩ := entry
    rw [List.flatMap_cons, assignList_append, ← ih, ← assignElements_eq]
    rfl

end Action

namespace Circuit

variable {circuit : Circuit} {config : Config} {taken l : List Element} {c : Computation}
  {enter : Enter}

/-- When no main input is to come, nothing is taken, and the first element is refused. -/
theorem assignList_full (enter : Enter) (l : List Element) (hc : c.circuit = circuit)
    (hp : c.pendingInputs = 0) (hfull : taken.length = circuit.mainInputCount) :
    assignList enter l c = answer (circuit.intake taken l).2 c ∧
    (circuit.intake taken l).1 = taken := by
  cases l with
  | nil => exact ⟨rfl, rfl⟩
  | cons x l =>
    obtain ⟨e, he⟩ := offence?_full hfull x
    unfold intake
    rw [he]
    exact ⟨bind_error (assignByName_full hc hp hfull he), rfl⟩

/-- **Elements in a row are taken as the intake has it**, up to the last main input; if it is
    taken, the main component runs, and then comes the refusal. -/
theorem Taken.assignList (l : List Element) (h : circuit.Taken config taken c)
    (hf : circuit.Feedable) (hroom : taken.length < circuit.mainInputCount)
    (hrun : ∀ taken c s, circuit.Taken config taken c → taken.length = circuit.mainInputCount →
      runMain enter c = .ok () s → s.circuit = circuit ∧ s.pendingInputs = 0) :
    ∃ c', circuit.Taken config (circuit.intake taken l).1 c' ∧ assignList enter l c
      = if (circuit.intake taken l).1.length = circuit.mainInputCount
        then (runMain enter >>= fun _ => answer (circuit.intake taken l).2) c'
        else answer (circuit.intake taken l).2 c' := by
  induction l generalizing taken c with
  | nil =>
    refine ⟨c, h, ?_⟩
    rw [show (circuit.intake taken []).1 = taken from rfl, if_neg (by omega)]
    rfl
  | cons x l ih =>
    cases ho : circuit.offence? taken x with
    | some e =>
      have hintake : circuit.intake taken (x :: l) = (taken, some e) := by
        unfold intake
        rw [ho]
      rw [hintake]
      refine ⟨c, h, ?_⟩
      show _ = if taken.length = circuit.mainInputCount then _ else _
      rw [if_neg (by omega)]
      exact bind_error (h.refuse ho)
    | none =>
      have hintake : circuit.intake taken (x :: l) = circuit.intake (taken ++ [x]) l := by
        rw [intake, ho]
      rw [hintake]
      obtain ⟨htaken, htake⟩ := h.take hf ho
      have hassign := htake enter
      by_cases hlast : (taken ++ [x]).length = circuit.mainInputCount
      · -- The element is the last one, and the main component runs before the next.
        rw [if_pos hlast] at hassign
        have hp := htaken.pendingInputs_eq
        rw [hlast, Nat.sub_self] at hp
        obtain ⟨-, hsame⟩ := assignList_full enter l htaken.circuit_eq hp hlast
        refine ⟨_, hsame.symm ▸ htaken, ?_⟩
        rw [if_pos (by rw [hsame]; exact hlast)]
        cases hr : runMain enter (c.assigned (circuit.place x) x.value) with
        | error f s => rw [bind_error hr]; exact bind_error (hassign.trans hr)
        | ok u s =>
          obtain ⟨hc, hp'⟩ := hrun _ _ s htaken hlast hr
          rw [bind_ok hr]
          exact (bind_ok (hassign.trans hr)).trans (assignList_full enter l hc hp' hlast).1
      · rw [if_neg hlast] at hassign
        have hroom' : (taken ++ [x]).length < circuit.mainInputCount := by
          have hpending := htaken.pending
          omega
        obtain ⟨c', htaken', hrest⟩ := ih htaken hroom'
        exact ⟨c', htaken', (bind_ok hassign).trans hrest⟩

/-! ## The main component begins -/

/-- The state in which the body of the main component begins, after some elements were taken:
    each main input is the place of just one of them and holds its value, signal 0 holds one, and
    no other signal has a value; and the main component is the only one. -/
structure Begins (circuit : Circuit) (config : Config) (taken : List Element) (body : Body)
    (root : Computation) : Prop where
  circuit_eq : root.circuit = circuit
  config_eq : root.config = config
  body_eq : circuit.templates.body? circuit.mainTemplate config.useAlternate = some body
  active : root.active = some .mainComponent
  alone : ∀ id, root.registry.get? id = if .mainComponent = id
    then some { root.mainRecord with pending := 0, stage := .running } else none
  pending : root.pendingInputs = 0
  places : (taken.map circuit.place).Perm
    (List.range' circuit.mainInputStart circuit.mainInputCount)
  values : ∀ x ∈ taken, root.store.read? (circuit.place x) = some x.value
  one : root.store.read? 0 = some 1
  size : root.store.size = circuit.totalSignals
  written : ∀ i, root.store.isWritten? i = some true ↔
    i = 0 ∨ i ∈ List.range' circuit.mainInputStart circuit.mainInputCount

/-- The elements taken stand for main inputs of their own; when there are as many as main inputs,
    none is left out. -/
theorem Taken.places (h : circuit.Taken config taken c) (hf : circuit.Feedable)
    (hfull : taken.length = circuit.mainInputCount) : (taken.map circuit.place).Perm
      (List.range' circuit.mainInputStart circuit.mainInputCount) := by
  -- Different places, all of them among the main inputs, and as many as these.
  have hnodup : (taken.map circuit.place).Nodup := by
    refine List.pairwise_map.mpr ((List.pairwise_map.mp h.once).imp_of_mem ?_)
    intro x y hx hy hne he
    exact hne (hf.place_inj (h.declares x hx) (h.declares y hy) he)
  have hsub : taken.map circuit.place ⊆
      List.range' circuit.mainInputStart circuit.mainInputCount := by
    intro i hi
    obtain ⟨x, hx, rfl⟩ := List.mem_map.mp hi
    exact hf.place_mem (h.declares x hx)
  apply (List.subperm_of_subset hnodup hsub).perm_of_length_le
  rw [List.length_map, List.length_range']
  exact Nat.le_of_eq hfull.symm

/-- With all main inputs taken, the main component is created over them, and its body can begin. -/
theorem Taken.begun (h : circuit.Taken config taken c) (hf : circuit.Feedable)
    (hfull : taken.length = circuit.mainInputCount) {reg : Registry} {body : Body}
    (hcreate : c.registry.create .mainComponent c.mainRecord = .ok reg)
    (hbody : (c.ready reg).startable .mainComponent = .ok body) :
    circuit.Begins config taken body ((c.ready reg).begun .mainComponent) := by
  have hplaces := h.places hf hfull
  obtain ⟨rfl, rfl, hreg, -, hpending, -, -, hsize, hone, hvalues, hwritten⟩ := h
  have hsets := Computation.sets_ready hf.counts hcreate
  obtain ⟨hstore, hcirc, hconf, -, hpend⟩ := Computation.awaited_frame
    (List.range' c.circuit.mainInputStart c.circuit.mainInputCount)
    (c.enrolled reg .mainComponent c.circuit.mainTemplate)
  have hrecord : ((c.ready reg).begun .mainComponent).mainRecord = c.mainRecord := by
    unfold Computation.mainRecord
    rw [show ((c.ready reg).begun .mainComponent).circuit = c.circuit from hcirc]
  have hkept : ((c.ready reg).begun .mainComponent).store = c.store := hstore
  refine ⟨hcirc, hconf, ?_, rfl, fun id => ?_, ?_, hplaces, fun x hx => ?_, ?_, ?_, fun i => ?_⟩
  · -- The body that can start is the one of the main template.
    obtain ⟨r, hr, -, -, hb⟩ := of_startable hbody
    rw [hsets.self] at hr
    cases hr
    rw [show (c.ready reg).circuit = c.circuit from hcirc,
      show (c.ready reg).config = c.config from hconf] at hb
    exact hb
  · show ((c.ready reg).registry.modify _ _).get? id = _
    rw [hrecord, (Registry.sets_modify hsets.self _) id, hsets id, hreg, Registry.get?_empty]
    by_cases hid : .mainComponent = id
    · rw [if_pos hid, if_pos hid]
    · rw [if_neg hid, if_neg hid, if_neg hid]
  · show (c.ready reg).pendingInputs = 0
    rw [show (c.ready reg).pendingInputs = c.pendingInputs from hpend]
    omega
  · rw [hkept]; exact hvalues x hx
  · rw [hkept]; exact hone
  · rw [hkept]; exact hsize
  · rw [hkept, hwritten i, ← hplaces.mem_iff, List.mem_map]

/-- When all main inputs are taken, the run of the main component is that of its body, from the
    state in which it begins. -/
theorem Taken.begins (h : circuit.Taken config taken c) (hf : circuit.Feedable)
    (hfull : taken.length = circuit.mainInputCount) :
    ∃ body root, circuit.Begins config taken body root ∧ ∀ enter,
      (∀ s, enter body .mainComponent root = .ok () s →
        runMain enter c = .ok () (s.ended .mainComponent none)) ∧
      ∀ f s, enter body .mainComponent root = .error f s →
        runMain enter c = .error f (s.left none) := by
  have hcapacity : (Handle.mainComponent).index < c.registry.capacity := by
    rw [h.registry, Registry.capacity_empty]
    exact Nat.pos_of_ne_zero hf.components
  have hfree : c.registry.get? .mainComponent = none := by rw [h.registry, Registry.get?_empty]
  have hcreate := Registry.create_of_free c.mainRecord hfree hcapacity
  generalize (⟨_⟩ : Registry) = reg at hcreate
  have hmain := h.circuit_eq.symm ▸ hf.main
  have hcounts : c.circuit.mainShape.inputs < 2 ^ 32 := h.circuit_eq.symm ▸ hf.counts
  obtain ⟨body, hbody⟩ := startable_ready hmain hcounts hcreate
  have hnone : (c.ready reg).active = none :=
    (Computation.awaited_frame _ _).2.2.2.1.trans h.active
  refine ⟨body, _, h.begun hf hfull hcreate hbody, fun enter => ?_⟩
  have hrun : runMain enter c = runBody enter body .mainComponent (c.ready reg) :=
    (runMain_eq hmain hcounts hcreate).trans (trigger_eq hbody)
  rw [hrun]
  unfold runBody
  constructor
  · intro s hs
    rw [hs, ← hnone]
  · intro f s hs
    rw [hs, ← hnone]

/-- When the body returns, the main component is there, and still no main input is to come. -/
theorem Begins.returns {levels : Nat} {body : Body} {root s : Computation}
    (h : circuit.Begins config taken body root)
    (hs : enterWithin levels body .mainComponent root = .ok () s) :
    (s.ended .mainComponent none).circuit = circuit ∧
    (s.ended .mainComponent none).pendingInputs = 0 ∧
    (s.ended .mainComponent none).registry.stage? .mainComponent = some .finished := by
  have hup : Moment.Upright ⟨[.mainComponent], root⟩ := h.active
  have hpath : Path .any ⟨[.mainComponent], root⟩
      ⟨[.mainComponent], (enterWithin levels body .mainComponent).after root⟩ :=
    (bodiesStep levels ⟨body, .mainComponent, root⟩ [] hup fun _ _ _ _ _ => trivial).1
  -- The main component was there before the body, and no record is lost.
  rw [after_ok hs] at hpath
  obtain ⟨r, hr, -⟩ := hpath.ages .mainComponent _ (by rw [h.alone, if_pos rfl])
  refine ⟨hpath.circuit_eq.1.trans h.circuit_eq, ?_, ?_⟩
  · have hle : s.pendingInputs ≤ root.pendingInputs := hpath.pendingInputs_le
    rw [h.pending] at hle
    exact Nat.le_zero.mp hle
  · unfold Registry.stage?
    show ((s.registry.modify _ _).get? _).map _ = _
    rw [Registry.get?_modify, if_pos rfl, hr]
    rfl

theorem Taken.returns {levels : Nat} {s : Computation} (h : circuit.Taken config taken c)
    (hf : circuit.Feedable) (hfull : taken.length = circuit.mainInputCount)
    (hs : runMain (enterWithin levels) c = .ok () s) : s.circuit = circuit ∧
      s.pendingInputs = 0 ∧ s.registry.stage? .mainComponent = some .finished := by
  obtain ⟨body, root, hbegins, hrun⟩ := h.begins hf hfull
  obtain ⟨hok, herror⟩ := hrun (enterWithin levels)
  cases hb : enterWithin levels body .mainComponent root with
  | error f t => rw [herror f t hb] at hs; cases hs
  | ok u t =>
    rw [hok t hb] at hs
    cases hs
    exact hbegins.returns hb

/-! ## The whole calculation -/

/-- The elements of an assignment that are taken. -/
def takenOf (circuit : Circuit) (inputs : InputValues) : List Element :=
  (circuit.intake [] inputs.elements).1

/-- What is wrong with the first element that is not taken. -/
def offenceOf (circuit : Circuit) (inputs : InputValues) : Option Refusal :=
  (circuit.intake [] inputs.elements).2

/-- The last main input is taken; a circuit without main inputs must be given none. -/
def Complete (circuit : Circuit) (inputs : InputValues) : Prop :=
  (circuit.takenOf inputs).length = circuit.mainInputCount ∧
    (circuit.mainInputCount = 0 → inputs.elements = [])

/-- How a calculation ends after the body of the main component was followed: as the body, if it
    fails; else as the elements after the last one taken. -/
def concluded (offence : Option Refusal) :
    EStateM.Result Fault Computation Unit → Except Fault Computation
  | .error f _ => .error f
  | .ok () s =>
    match offence with
    | some e => .error (.refused e)
    | none => .ok (s.ended .mainComponent none)

variable {inputs : InputValues}

theorem feed_error {f : Fault} {c' : Computation}
    (h : Request.run (.assignAll inputs) c = .error f c') : feed inputs c = .error f c' :=
  bind_error h

theorem feed_ok {c' : Computation} (h : Request.run (.assignAll inputs) c = .ok () c') :
    feed inputs c = if (c'.registry.stage? .mainComponent).isSome then .ok () c'
      else if c'.pendingInputs ≠ 0 then .error (.refused
        (.inputsIncomplete c'.pendingInputs c'.circuit.mainShape.inputCounter)) c'
      else runMain (enterWithin c'.nesting) c' := by
  unfold feed
  rw [bind_ok h, get_bind]
  split
  · rfl
  · split <;> rfl

/-- Assigning in a fresh computation. -/
theorem run_assignAll : Request.run (.assignAll inputs) (.start circuit config)
    = assignList (enterWithin circuit.totalComponents) inputs.elements (.start circuit config) := by
  rw [← assignAll_eq]
  show assignAll (enterWithin (Registry.empty circuit.totalComponents).capacity) inputs _ = _
  rw [Registry.capacity_empty]

/-- If there are main inputs, the elements are assigned as the intake has it. -/
theorem run_taken (hf : circuit.Feedable) (config : Config) (inputs : InputValues)
    (hn : circuit.mainInputCount ≠ 0) : ∃ c, circuit.Taken config (circuit.takenOf inputs) c ∧
      Request.run (.assignAll inputs) (.start circuit config)
        = if (circuit.takenOf inputs).length = circuit.mainInputCount
          then (runMain (enterWithin circuit.totalComponents) >>=
            fun _ => answer (circuit.offenceOf inputs)) c
          else answer (circuit.offenceOf inputs) c := by
  obtain ⟨c, htaken, hassign⟩ := (taken_start hf config).assignList inputs.elements hf
    (Nat.pos_of_ne_zero hn)
    fun _ _ _ ht hl hs => ⟨(ht.returns hf hl hs).1, (ht.returns hf hl hs).2.1⟩
  exact ⟨c, htaken, run_assignAll.trans hassign⟩

/-- Before the main component runs, it is not there. -/
theorem Taken.stage? (h : circuit.Taken config taken c) :
    c.registry.stage? .mainComponent = none := by
  unfold Registry.stage?
  rw [h.registry, Registry.get?_empty]
  rfl

/-- A calculation whose last main input is taken runs the main component, and then refuses the
    next element if there is one. -/
theorem feed_complete (hf : circuit.Feedable) (config : Config)
    (h : circuit.Complete inputs) :
    ∃ c, circuit.Taken config (circuit.takenOf inputs) c ∧
      feed inputs (.start circuit config) = (runMain (enterWithin circuit.totalComponents) >>=
        fun _ => answer (circuit.offenceOf inputs)) c := by
  obtain ⟨hfull, hempty⟩ := h
  have hstart := taken_start hf config
  by_cases hn : circuit.mainInputCount = 0
  · -- Without main inputs the main component is run after the empty assignment.
    have hoffence : circuit.offenceOf inputs = none := by
      unfold offenceOf
      rw [hempty hn]
      rfl
    have htaken : circuit.takenOf inputs = [] := by
      unfold takenOf
      rw [hempty hn]
      rfl
    have hrun : Request.run (.assignAll inputs) (.start circuit config)
        = .ok () (.start circuit config) := by
      rw [run_assignAll, hempty hn]
      rfl
    have hp : (Computation.start circuit config).pendingInputs = 0 := by
      rw [hstart.pendingInputs_eq, hn]
      rfl
    refine ⟨_, htaken ▸ hstart, ?_⟩
    rw [feed_ok hrun, hstart.stage?, if_neg (by simp), if_neg (by simp [hp]), hoffence]
    show runMain (enterWithin (Registry.empty circuit.totalComponents).capacity) _ = _
    rw [Registry.capacity_empty]
    exact bind_return.symm
  · obtain ⟨c, htaken, hassign⟩ := run_taken hf config inputs hn
    rw [if_pos hfull] at hassign
    refine ⟨c, htaken, ?_⟩
    cases hr : runMain (enterWithin circuit.totalComponents) c with
    | error f s =>
      rw [bind_error hr] at hassign ⊢
      exact feed_error hassign
    | ok u s =>
      have hstage := (htaken.returns hf hfull hr).2.2
      -- The main component is there, so it is not run again.
      rw [bind_ok hr] at hassign ⊢
      cases ho : circuit.offenceOf inputs with
      | some e =>
        rw [ho] at hassign
        exact feed_error hassign
      | none =>
        rw [ho] at hassign
        rw [feed_ok hassign, hstage]
        rfl

/-- A calculation whose last main input is not taken is refused, and nothing runs. -/
theorem feed_incomplete (hf : circuit.Feedable) (config : Config)
    (h : ¬ circuit.Complete inputs) :
    ∃ c, circuit.Taken config (circuit.takenOf inputs) c ∧
      feed inputs (.start circuit config) = .error (.refused ((circuit.offenceOf inputs).getD
        (.inputsIncomplete (circuit.mainInputCount - inputs.elements.length)
          circuit.mainInputCount))) c := by
  have hstart := taken_start hf config
  obtain ⟨rest, happend, -, hnone⟩ := circuit.intake_eq inputs.elements []
  have hall : circuit.offenceOf inputs = none → inputs.elements = circuit.takenOf inputs := by
    intro ho
    rw [hnone ho, List.append_nil] at happend
    exact happend
  by_cases hn : circuit.mainInputCount = 0
  · -- Without main inputs the first element is refused, and there is one.
    have hp : (Computation.start circuit config).pendingInputs = 0 := by
      rw [hstart.pendingInputs_eq, hn]
      rfl
    obtain ⟨hassign, htaken⟩ := assignList_full (enterWithin circuit.totalComponents)
      inputs.elements hstart.circuit_eq hp (show ([] : List Element).length = _ from hn.symm)
    cases ho : circuit.offenceOf inputs with
    | some e =>
      refine ⟨_, htaken.symm ▸ hstart, feed_error ?_⟩
      rw [run_assignAll, hassign, show (circuit.intake [] inputs.elements).2 = some e from ho]
      rfl
    | none =>
      exfalso
      have hnil : inputs.elements = [] := (hall ho).trans htaken
      refine h ⟨?_, fun _ => hnil⟩
      rw [← hall ho, hnil, hn]
      rfl
  · obtain ⟨c, htaken, hassign⟩ := run_taken hf config inputs hn
    have hless : (circuit.takenOf inputs).length ≠ circuit.mainInputCount :=
      fun he => h ⟨he, fun h0 => absurd h0 hn⟩
    rw [if_neg hless] at hassign
    refine ⟨c, htaken, ?_⟩
    cases ho : circuit.offenceOf inputs with
    | some e =>
      rw [ho] at hassign
      exact feed_error hassign
    | none =>
      rw [ho] at hassign
      have hpending := htaken.pending
      have hp := htaken.pendingInputs_eq
      have hcounter : c.circuit.mainShape.inputCounter = circuit.mainInputCount := by
        rw [htaken.circuit_eq]
        exact TemplateShape.inputCounter_eq hf.counts
      rw [feed_ok hassign, htaken.stage?, if_neg (by simp), if_pos (by omega), hcounter, hp,
        hall ho]
      rfl

/-- **The input stage of a calculation, completely classified.**  Of the elements of an assignment
    those up to the first at fault are taken.  If they are all the main inputs, the body of the
    main component is run, in the state in which each main input holds its value, and the
    calculation ends as that run does, or as the next element if there is one.  If they are not,
    no component is ever created, and the calculation is refused for the fault, or for the inputs
    that are missing. -/
theorem calculation_classified {d : CircuitDescription} (hd : d.accept = .ok circuit)
    (hcounts : circuit.mainInputCount < 2 ^ 32)
    (hinside : circuit.mainInputStart + circuit.mainInputCount ≤ circuit.totalSignals)
    (config : Config) (inputs : InputValues) :
    (∃ rest, inputs.elements = circuit.takenOf inputs ++ rest ∧
      circuit.offenceOf inputs = rest.head?.bind (circuit.offence? (circuit.takenOf inputs)) ∧
      (circuit.offenceOf inputs = none → rest = [])) ∧
    (circuit.takenOf inputs).length ≤ circuit.mainInputCount ∧
    (circuit.Complete inputs → ∃ body root,
      circuit.Begins config (circuit.takenOf inputs) body root ∧
      circuit.calculation config inputs = concluded (circuit.offenceOf inputs)
        (enterWithin circuit.totalComponents body .mainComponent root)) ∧
    (¬ circuit.Complete inputs →
      ((feed inputs).after (.start circuit config)).registry
        = Registry.empty circuit.totalComponents ∧
      circuit.calculation config inputs = .error (.refused ((circuit.offenceOf inputs).getD
        (.inputsIncomplete (circuit.mainInputCount - inputs.elements.length)
          circuit.mainInputCount)))) := by
  have hf := Feedable.of_accept hd hcounts hinside
  refine ⟨circuit.intake_eq inputs.elements [], intake_length _ (Nat.zero_le _), ?_, ?_⟩
  · intro hcomplete
    obtain ⟨c, htaken, hfeed⟩ := feed_complete hf config hcomplete
    obtain ⟨body, root, hbegins, hrun⟩ := htaken.begins hf hcomplete.1
    refine ⟨body, root, hbegins, ?_⟩
    obtain ⟨hok, herror⟩ := hrun (enterWithin circuit.totalComponents)
    unfold calculation final
    cases hb : enterWithin circuit.totalComponents body .mainComponent root with
    | error f s =>
      rw [hfeed, bind_error (herror f s hb)]
      rfl
    | ok u s =>
      rw [hfeed, bind_ok (hok s hb)]
      cases circuit.offenceOf inputs <;> rfl
  · intro hcomplete
    obtain ⟨c, htaken, hfeed⟩ := feed_incomplete hf config hcomplete
    unfold calculation final
    rw [hfeed, after_error hfeed]
    exact ⟨htaken.registry, rfl⟩

theorem relay_findName : relay.inputs.findName? "in" = some ⟨"in", 0, 2⟩ := by
  show List.find? (fun s : InputSignal => s.hash == inputHash "in") [⟨"in", 0, 2⟩] = _
  rw [List.find?_cons_of_pos]
  exact beq_self_eq_true (inputHash "in")

theorem relay_intake : relay.intake [] (InputValues.elements ⟨[("in", [5, 7])]⟩)
    = ([⟨"in", 0, 5⟩, ⟨"in", 1, 7⟩], none) := by
  simp [InputValues.elements, elementsFrom, intake, offence?, relay_findName, Element.address,
    show relay.mainInputCount = 2 from rfl]

theorem relay_intake_less : relay.intake [] (InputValues.elements ⟨[("in", [5])]⟩)
    = ([⟨"in", 0, 5⟩], none) := by
  simp [InputValues.elements, elementsFrom, intake, offence?, relay_findName,
    show relay.mainInputCount = 2 from rfl]

/-- The two inputs of the small circuit start its main component, and one of them does not. -/
theorem calculation_classified_relay :
    (∃ body root, relay.Begins .diagnostic [⟨"in", 0, 5⟩, ⟨"in", 1, 7⟩] body root ∧
      relay.calculation .diagnostic ⟨[("in", [5, 7])]⟩
        = concluded none (enterWithin 2 body .mainComponent root)) ∧
    relay.calculation .diagnostic ⟨[("in", [5])]⟩
      = .error (.refused (.inputsIncomplete 1 2)) := by
  constructor
  · have hall := (calculation_classified accept_relay (by decide) (by decide) .diagnostic
      ⟨[("in", [5, 7])]⟩).2.2.1
    unfold Complete takenOf offenceOf at hall
    rw [relay_intake] at hall
    exact hall ⟨rfl, fun h => nomatch h⟩
  · have hless := (calculation_classified accept_relay (by decide) (by decide) .diagnostic
      ⟨[("in", [5])]⟩).2.2.2
    unfold Complete takenOf offenceOf at hless
    rw [relay_intake_less] at hless
    exact (hless fun h => absurd h.1 (by decide)).2

end Circuit
end CircuitWitness
