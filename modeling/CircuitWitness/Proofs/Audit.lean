import CircuitWitness.Computation.Audit
import CircuitWitness.Proofs.Faithful
/-
  What the audit finds.

  The audit counts events and compares their places, component by component.  The story of a
  component says what it will find.  Once the component has begun, its events are the creation, one
  arrival for each input with the counts going down to zero, the start, and whatever came after; so
  none of the counts and places can be at fault (`Computation.Timely`), and only the last question
  is open: was the component released?  A component that has not begun is caught by the first
  question that is about it at all, the number of its starts.  So what the audit finds at a
  component is told from its stage alone (`Component.breach?`, `auditComponent_eq`).

  The one walk over events that is not a count, `checkArrivals`, is a statement about the place of
  each arrival.
-/

namespace CircuitWitness

variable {templates : TemplateTable} {id : Handle} {r : Component} {shape : TemplateShape}
  {events : List Event}

/-! ## The places of the events -/

theorem Event.isTriggered_eq (e : Event) : e.isTriggered = (e.milestone? == some .triggered) := by
  cases e <;> rfl

/-- The walk passes if every arrival comes before the start, and just the last one directly before
    it. -/
theorem checkArrivals_ok_iff {label : String} {triggerAt position : Nat} :
    checkArrivals label triggerAt position events = .ok () ↔
      ∀ j id i n, events[j]? = some (.inputWritten id i n) →
        position + j < triggerAt ∧ (n = 0 ↔ position + j + 1 = triggerAt) := by
  induction events generalizing position with
  | nil => simp [checkArrivals]
  | cons e events ih =>
    -- The first event is looked at by itself, and the others are one place further on.
    have hsplit : (∀ j id i n, (e :: events)[j]? = some (.inputWritten id i n) →
          position + j < triggerAt ∧ (n = 0 ↔ position + j + 1 = triggerAt)) ↔
        (∀ id i n, e = .inputWritten id i n →
          position < triggerAt ∧ (n = 0 ↔ position + 1 = triggerAt)) ∧
        checkArrivals label triggerAt (position + 1) events = .ok () := by
      rw [ih]
      constructor
      · refine fun h => ⟨fun id i n he => h 0 id i n (congrArg some he), fun j id i n hj => ?_⟩
        have hnext := h (j + 1) id i n hj
        omega
      · rintro ⟨hfirst, hrest⟩ (_ | j) id i n hj
        · exact hfirst id i n (Option.some.inj hj)
        · have hnext := hrest j id i n hj
          omega
    rw [hsplit]
    cases e with
    | inputWritten id i n =>
      have hhead : (∀ id' i' n', Event.inputWritten id i n = .inputWritten id' i' n' →
          position < triggerAt ∧ (n' = 0 ↔ position + 1 = triggerAt)) ↔
          position < triggerAt ∧ (n = 0 ↔ position + 1 = triggerAt) :=
        ⟨fun h => h _ _ _ rfl, fun h _ _ _ he => by cases he; exact h⟩
      have hlast : ((n == 0) != (position + 1 == triggerAt)) = false ↔
          (n = 0 ↔ position + 1 = triggerAt) := by
        rw [bne_eq_false_iff_eq, Bool.eq_iff_iff, beq_iff_eq, beq_iff_eq]
      rw [hhead, ← hlast, checkArrivals]
      split
      · exact ⟨fun h => (nomatch h), fun h => absurd h.1.1 (by omega)⟩
      split
      · rename_i hflag
        exact ⟨fun h => (nomatch h), fun h => absurd hflag (by simp [h.1.2])⟩
      · rename_i hplace hflag
        exact ⟨fun h => ⟨⟨by omega, by simpa using hflag⟩, h⟩, fun h => h.2⟩
    | _ => simp [checkArrivals]

/-! ## One component -/

namespace Component

/-- A component that has begun has its start right after its creation and its inputs. -/
theorem past_begun (hp : r.pending = 0) (hs : r.stage ≠ .created) (inputs : Nat) :
    ∃ rest, r.past inputs
        = .created :: (List.range inputs).reverse.map .input ++ .triggered :: rest ∧
      ∀ m ∈ rest, m = .finished ∨ m = .released := by
  have hrow : List.range' r.pending (inputs - r.pending) = List.range inputs := by
    rw [hp, Nat.sub_zero, List.range_eq_range']
  have hrest : ∃ rest, r.stage.milestones = .triggered :: rest ∧
      ∀ m ∈ rest, m = .finished ∨ m = .released := by
    cases hst : r.stage with
    | created => exact absurd hst hs
    | running => exact ⟨[], rfl, by simp⟩
    | finished => exact ⟨[.finished], rfl, by simp⟩
    | released => exact ⟨[.finished, .released], rfl, by simp⟩
  obtain ⟨rest, hstage, hafter⟩ := hrest
  refine ⟨rest, ?_, hafter⟩
  unfold past
  rw [hrow, hstage]

/-- Once it has begun, an input that left so many missing stands as many places before the last. -/
theorem past_input (hp : r.pending = 0) (hs : r.stage ≠ .created) {inputs j n : Nat}
    (h : (r.past inputs)[j]? = some (.input n)) : 0 < j ∧ j + n = inputs := by
  obtain ⟨rest, hpast, hafter⟩ := past_begun hp hs inputs
  rw [hpast, List.cons_append] at h
  cases j with
  | zero => cases h
  | succ j =>
    rw [List.getElem?_cons_succ] at h
    rcases Nat.lt_or_ge j inputs with hlt | hge
    · rw [List.getElem?_append_left (by simpa using hlt), List.getElem?_map,
        List.getElem?_reverse (by simpa using hlt), List.length_range,
        List.getElem?_range (by omega)] at h
      cases h
      omega
    · rw [List.getElem?_append_right (by simpa using hge)] at h
      rcases List.mem_cons.mp (List.mem_of_getElem? h) with hin | hin
      · cases hin
      · rcases hafter _ hin with hin | hin <;> cases hin

/-- A component that waits for its body has not started. -/
theorem count_triggered_past_created (hs : r.stage = .created) (inputs : Nat) :
    (r.past inputs).count .triggered = 0 := by
  unfold past
  rw [hs, List.count_append, List.count_cons, Milestone.count_inputs .triggered nofun]
  rfl

/-- A component that has begun has started once. -/
theorem count_triggered_past (hp : r.pending = 0) (hs : r.stage ≠ .created) (inputs : Nat) :
    (r.past inputs).count .triggered = 1 := by
  obtain ⟨rest, hpast, hafter⟩ := past_begun hp hs inputs
  have hnone : Milestone.triggered ∉ rest := fun h => by
    rcases hafter _ h with h | h <;> cases h
  rw [hpast, List.cons_append, List.count_cons, List.count_append, List.count_cons_self,
    Milestone.count_inputs .triggered nofun, List.count_eq_zero.mpr hnone]
  rfl

/-- Its start comes after the creation and the inputs. -/
theorem findIdx?_triggered_past (hp : r.pending = 0) (hs : r.stage ≠ .created) (inputs : Nat) :
    (r.past inputs).findIdx? (· == .triggered) = some (1 + inputs) := by
  obtain ⟨rest, hpast, -⟩ := past_begun hp hs inputs
  have hearlier : ((List.range inputs).reverse.map Milestone.input).findIdx? (· == .triggered)
      = none := by
    rw [List.findIdx?_eq_none_iff]
    simp
  rw [hpast, List.cons_append, List.findIdx?_cons, List.findIdx?_append, hearlier]
  simp [List.findIdx?_cons, Nat.add_comm]

end Component

/-- The breach that the stage of a component shows. -/
def Component.breach? (id : Handle) (r : Component) : Option AuditFailure :=
  match r.stage with
  | .created => some (.triggerCount r.label 0)
  | .released => none
  | stage => if id = .mainComponent then none else some (.notReleased r.label stage)

theorem Component.breach?_eq_none_iff :
    r.breach? id = none ↔ r.stage ≠ .created ∧ (id ≠ .mainComponent → r.stage = .released) := by
  unfold breach?
  cases r.stage <;> simp

namespace Computation

variable {c : Computation}

/-- What the audit asks of a component before it asks for the release: one start, no input missing,
    as many arrivals as there are inputs, each of them before the start, and just the last one
    directly before it. -/
structure Timely (c : Computation) (id : Handle) (r : Component) (shape : TemplateShape) :
    Prop where
  known : c.circuit.templates.shape? r.template = some shape
  triggers : c.trace.triggers id = 1
  pending : r.pending = 0
  arrivals : c.trace.arrivals id = shape.inputs
  order : ∃ k, (c.trace.eventsOf id).findIdx? Event.isTriggered = some k ∧
    ∀ (j : Nat) (id' : Handle) (i n : Nat),
      (c.trace.eventsOf id)[j]? = some (.inputWritten id' i n) → j < k ∧ (n = 0 ↔ j + 1 = k)

/-- The starts of a component whose story is told are those that it has passed. -/
theorem triggers_past (hstory : r.Story c.circuit.templates id (c.trace.eventsOf id))
    (hshape : c.circuit.templates.shape? r.template = some shape) :
    c.trace.triggers id = (r.past shape.inputs).count .triggered := by
  rw [Trace.triggers_eq, hstory.past shape hshape,
    List.count_map_of_injective _ some fun _ _ h => Option.some.inj h]

/-- Whatever has begun was timely. -/
theorem timely_of_begun (hset : r.Settled c.circuit.templates)
    (hstory : r.Story c.circuit.templates id (c.trace.eventsOf id)) (hs : r.stage ≠ .created)
    (hshape : c.circuit.templates.shape? r.template = some shape) : c.Timely id r shape := by
  have hp : r.pending = 0 := hset.agrees.mpr hs
  have hmap := hstory.past shape hshape
  refine ⟨hshape, ?_, hp, ?_, 1 + shape.inputs, ?_, fun j id' i n hj => ?_⟩
  · rw [triggers_past hstory hshape, Component.count_triggered_past hp hs]
  · rw [Trace.arrivals_eq, hmap, Component.countP_past, hp, Nat.sub_zero]
  · have hsame : Event.isTriggered = (· == some .triggered) ∘ Event.milestone? :=
      funext Event.isTriggered_eq
    have hinner : ((· == some .triggered) ∘ some) = (· == Milestone.triggered) :=
      funext fun _ => Option.some_beq_some
    rw [hsame, ← List.findIdx?_map, hmap, List.findIdx?_map, hinner,
      Component.findIdx?_triggered_past hp hs]
  · have hinput : ((r.past shape.inputs).map some)[j]? = some (some (.input n)) := by
      rw [← hmap, List.getElem?_map, hj]
      rfl
    rw [List.getElem?_map] at hinput
    obtain ⟨e, he, hsome⟩ := Option.map_eq_some_iff.mp hinput
    cases hsome
    have hplace := Component.past_input hp hs he
    omega

/-- Of a component that was timely, the audit asks only whether it was released. -/
theorem Timely.auditComponent (h : c.Timely id r shape) :
    c.auditComponent id r = if id ≠ .mainComponent ∧ r.stage ≠ .released
      then .error (.notReleased r.label r.stage) else .ok () := by
  obtain ⟨k, hplace, horder⟩ := h.order
  have hcheck : checkArrivals r.label k 0 (c.trace.eventsOf id) = .ok () :=
    checkArrivals_ok_iff.mpr (by simpa using horder)
  unfold Computation.auditComponent
  simp only [h.known, h.triggers, h.pending, h.arrivals, hplace, hcheck, ne_eq, not_true_eq_false,
    if_false]

/-- A component that waits for its body is caught by the number of its starts. -/
theorem auditComponent_created (hshape : c.circuit.templates.shape? r.template = some shape)
    (htriggers : c.trace.triggers id = 0) :
    c.auditComponent id r = .error (.triggerCount r.label 0) := by
  unfold auditComponent
  simp only [hshape, htriggers]
  rfl

/-- **The audit of a component finds the breach that its stage shows.** -/
theorem auditComponent_eq (hset : r.Settled c.circuit.templates)
    (hstory : r.Story c.circuit.templates id (c.trace.eventsOf id)) :
    c.auditComponent id r = (r.breach? id).elim (.ok ()) .error := by
  obtain ⟨shape, hshape, -⟩ := hset.known
  by_cases hs : r.stage = .created
  · have htriggers : c.trace.triggers id = 0 := by
      rw [triggers_past hstory hshape, Component.count_triggered_past_created hs]
    rw [auditComponent_created hshape htriggers]
    unfold Component.breach?
    rw [hs]
    rfl
  · rw [(timely_of_begun hset hstory hs hshape).auditComponent]
    unfold Component.breach?
    cases hst : r.stage with
    | created => exact absurd hst hs
    | released => rw [if_neg fun h => h.2 rfl]; rfl
    | running | finished => by_cases hid : id = .mainComponent <;> simp [hid]

/-- The first breach at a component is what the audit of all components finds. -/
theorem auditComponents_eq (breach? : Handle × Component → Option AuditFailure)
    {l : List (Handle × Component)}
    (h : ∀ x ∈ l, c.auditComponent x.1 x.2 = (breach? x).elim (.ok ()) .error) :
    c.auditComponents l = (l.findSome? breach?).elim (.ok ()) .error := by
  induction l with
  | nil => rfl
  | cons x l ih =>
    unfold auditComponents
    rw [h x (List.mem_cons_self ..), List.findSome?_cons]
    cases breach? x with
    | none => exact ih fun y hy => h y (List.mem_cons_of_mem x hy)
    | some e => rfl

theorem auditComponents_ok {l : List (Handle × Component)}
    (h : ∀ x ∈ l, c.auditComponent x.1 x.2 = .ok ()) : c.auditComponents l = .ok () := by
  rw [auditComponents_eq (fun _ => none) h, List.findSome?_eq_none_iff.mpr fun _ _ => rfl]
  rfl

end Computation

/-- The listed components are those that exist. -/
theorem Registry.of_mem_toList {reg : Registry} (h : (id, r) ∈ reg.toList) :
    reg.get? id = some r := by
  obtain ⟨⟨slot, i⟩, hmem, hslot⟩ := List.mem_filterMap.mp h
  obtain ⟨r', rfl, hpair⟩ := Option.map_eq_some_iff.mp hslot
  cases hpair
  have hget : reg.records.toList[i]? = some (some r) := List.mem_zipIdx_iff_getElem?.mp hmem
  unfold get?
  rw [← Array.getElem?_toList, hget]
  rfl

/-! ## All components -/

/-- **The audit passes** if every component has begun, every component but the main one was
    released, and no signal was read early. -/
theorem Computation.Chronicled.audit_ok {m : Moment} (h : m.state.Chronicled) (hm : m.Settled)
    (hbegun : ∀ id r, m.state.registry.get? id = some r → r.stage ≠ .created)
    (hreleased : ∀ id r, m.state.registry.get? id = some r → id ≠ .mainComponent →
      r.stage = .released)
    (hreads : m.state.trace.earlyReads = []) : m.state.audit = .ok () := by
  have hall : m.state.auditComponents m.state.registry.toList = .ok () := by
    refine auditComponents_ok fun ⟨id, r⟩ hmem => ?_
    have hr := Registry.of_mem_toList hmem
    rw [auditComponent_eq (hm.records id r hr) (h.stories id r hr),
      Component.breach?_eq_none_iff.mpr ⟨hbegun id r hr, hreleased id r hr⟩]
    rfl
  unfold audit
  rw [h.enabled, hall, hreads]
  rfl

end CircuitWitness
