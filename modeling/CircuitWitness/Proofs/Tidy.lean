import CircuitWitness.Proofs.Release
import CircuitWitness.Proofs.Strict
import CircuitWitness.Proofs.Yields
/-
  Bodies that give back their children.

  That a parent releases its children before it returns is a habit of bodies and not a rule of the
  engine.  A body has it if it puts each child into a slot that was empty, writes inputs only to its
  own children, and releases its children at the end.  What follows from the habit is a property of
  whole runs: when a body has returned, every component that was created since it began was
  released, and each before its own parent finished.

  All this is about bodies that return (`Action.Yields`).  The invariant is `Computation.AtWork`,
  which a body keeps from request to request.  It tells the new components apart: those in a slot of
  the component at work are in its care, and all others are back already.
-/

namespace CircuitWitness

open CircuitWitness.Action

/-! ## Slots, children, and components that are back -/

/-- From a slot on, the slots are empty. -/
def VacantFrom (n : Nat) (slots : Array (Option Handle)) : Prop :=
  ∀ j, n ≤ j → ∀ id, slots[j]? ≠ some (some id)

theorem vacantFrom_replicate (n m : Nat) : VacantFrom n (Array.replicate m none) := by
  intro j _ id h
  have hmem := Array.mem_of_getElem? h
  rw [Array.mem_replicate] at hmem
  cases hmem.2

/-- The next slot is filled. -/
theorem VacantFrom.set {n : Nat} {slots : Array (Option Handle)} (h : VacantFrom n slots)
    (child : Option Handle) : VacantFrom (n + 1) (slots.setIfInBounds n child) := by
  intro j hj id
  rw [Array.getElem?_setIfInBounds_ne (by omega)]
  exact h j (by omega) id

/-- A child in the care of its parent: it has no children before it begins, and if it was released,
    the trace says so. -/
structure Component.InCare (r : Component) (trace : Trace) (parent id : Handle) : Prop where
  parent : r.parent = some parent
  vacant : r.stage = .created → VacantFrom 0 r.slots
  told : r.stage = .released → .released id ∈ trace.toList

namespace Computation

/-- A component is a child in the care of its parent. -/
def Cares (c : Computation) (parent id : Handle) : Prop :=
  ∃ r, c.registry.get? id = some r ∧ r.InCare c.trace parent id

/-- A component was released, and after that its parent finished. -/
def Returned (c : Computation) (id : Handle) : Prop :=
  ∃ r p, c.registry.get? id = some r ∧ r.stage = .released ∧ r.parent = some p ∧
    [.released id, .finished p].Sublist c.trace.toList

variable {c c' : Computation} {parent id : Handle} {block : List Event}

/-- A child that was cared for is so later, if nothing is told of it and its record stays. -/
theorem Cares.later (h : c.Cares parent id) (hr : c'.registry.get? id = c.registry.get? id)
    (htrace : c'.trace.toList = c.trace.toList ++ block) : c'.Cares parent id := by
  obtain ⟨r, hget, hparent, hvacant, htold⟩ := h
  refine ⟨r, hr.trans hget, hparent, hvacant, fun hs => ?_⟩
  rw [htrace]
  exact List.mem_append_left _ (htold hs)

theorem Returned.later (h : c.Returned id) (hr : c'.registry.get? id = c.registry.get? id)
    (htrace : c'.trace.toList = c.trace.toList ++ block) : c'.Returned id := by
  obtain ⟨r, p, hget, hs, hparent, hsub⟩ := h
  refine ⟨r, p, hr.trans hget, hs, hparent, ?_⟩
  rw [htrace]
  exact hsub.trans (List.sublist_append_left _ _)

/-! ## A body at work -/

/-- A body is at work for a component.  Since it began, in the state `c₀`, it has filled slots of
    its component and left alone all others that were there.  Of the new ones, those in the slots
    are its children and in its care, and the rest is back. -/
structure AtWork (c₀ : Computation) (parent : Handle) (r : Component)
    (slots : Array (Option Handle)) (c : Computation) : Prop where
  begun : c₀.registry.get? parent = some r
  circuit : c.circuit = c₀.circuit
  enabled : c.trace.enabled = true
  told : ∃ block, c.trace.toList = c₀.trace.toList ++ block
  record : c.registry.get? parent = some { r with slots := slots }
  others : ∀ id r', id ≠ parent → c₀.registry.get? id = some r' → c.registry.get? id = some r'
  children : ∀ (slot : Nat) (id : Handle), slots[slot]? = some (some id) →
    c₀.registry.get? id = none ∧ c.Cares parent id
  fresh : ∀ id r', c₀.registry.get? id = none → c.registry.get? id = some r' →
    (∃ slot : Nat, slots[slot]? = some (some id)) ∨ c.Returned id

/-- A body has released all its children. -/
def Tidied (c₀ : Computation) (parent : Handle) (r : Component) (c : Computation) : Prop :=
  ∃ slots, c₀.AtWork parent r slots c ∧ ∀ (slot : Nat) (id : Handle),
    slots[slot]? = some (some id) → c.registry.stage? id = some .released

/-- When a tidy body has ended, every component that is new since it began is back. -/
theorem Tidied.returned {c₀ : Computation} {r r' : Component} (h : c₀.Tidied parent r c)
    (caller : Option Handle) (hne : id ≠ parent) (hr : c.registry.get? id = some r')
    (hnew : c₀.registry.get? id = none) : (c.ended parent caller).Returned id := by
  obtain ⟨slots, hwork, hreleased⟩ := h
  obtain ⟨-, htrace⟩ : (c.trace.record (.finished parent)).enabled = true ∧ _ :=
    Trace.extends_record c.trace (.finished parent) hwork.enabled
  have hget : (c.ended parent caller).registry.get? id = c.registry.get? id := by
    show (c.registry.modify parent _).get? id = _
    rw [Registry.get?_modify, if_neg hne.symm]
  rcases hwork.fresh id r' hnew hr with ⟨slot, hslot⟩ | hback
  · obtain ⟨r₁, hr₁, hparent, -, htold⟩ := (hwork.children slot id hslot).2
    cases hr.symm.trans hr₁
    obtain ⟨r₂, hr₂, hstage⟩ := Registry.stage?_eq_some.mp (hreleased slot id hslot)
    cases hr.symm.trans hr₂
    refine ⟨r', parent, hget.trans hr, hstage, hparent, ?_⟩
    show List.Sublist _ (c.trace.record (.finished parent)).toList
    rw [htrace]
    exact (List.singleton_sublist.mpr (htold hstage)).append (List.Sublist.refl [_])
  · exact hback.later hget htrace

end Computation

/-- An action for a component without children leaves it without children to release. -/
def Action.Tidy (circuit : Circuit) (id : Handle) (act : Action Unit) : Prop :=
  ∀ c r, c.circuit = circuit → c.trace.enabled = true → c.registry.get? id = some r →
    VacantFrom 0 r.slots → act.Yields c fun _ c' => c.Tidied id r c'

/-- The bodies of the circuit are tidy when they are entered. -/
def Enter.Tidy (circuit : Circuit) (enter : Enter) : Prop :=
  ∀ body, circuit.Runs body → ∀ id, Action.Tidy circuit id (enter body id)

/-! ## What is done for one component -/

/-- A component is the same one as before, and has not been released since. -/
structure Component.Leads (r r' : Component) : Prop where
  parent : r'.parent = r.parent
  waiting : r'.stage = .created → r.stage = .created ∧ r'.slots = r.slots
  released : r'.stage = .released → r.stage = .released

theorem Component.Leads.trans {r r' r'' : Component} (h : r.Leads r') (h' : r'.Leads r'') :
    r.Leads r'' where
  parent := h'.parent.trans h.parent
  waiting hs := ⟨(h.waiting (h'.waiting hs).1).1,
    (h'.waiting hs).2.trans (h.waiting (h'.waiting hs).1).2⟩
  released hs := h.released (h'.released hs)

namespace Computation

/-- From one state to another something was done for a component.  Nothing else has happened to
    the components but that some have come that are back already. -/
structure Serves (c : Computation) (id : Handle) (c' : Computation) : Prop where
  circuit : c'.circuit = c.circuit
  told : ∃ block, c.trace.Extends c'.trace block
  record : ∃ r r', c.registry.get? id = some r ∧ c'.registry.get? id = some r' ∧ r.Leads r'
  others : ∀ other, other ≠ id → c'.registry.get? other = c.registry.get? other ∨
    (c.registry.get? other = none ∧ c'.Returned other)

/-- A component of a traced computation that has no children before it begins. -/
structure Clear (circuit : Circuit) (c : Computation) (id : Handle) : Prop where
  circuit : c.circuit = circuit
  enabled : c.trace.enabled = true
  vacant : ∀ r, c.registry.get? id = some r → r.stage = .created → VacantFrom 0 r.slots

variable {circuit : Circuit} {c c' c'' : Computation} {id : Handle} {r r' : Component}
  {block : List Event} {enter : Enter}

namespace Serves

/-- The record of the component is altered. -/
theorem of_sets (hcircuit : c'.circuit = c.circuit) (hx : c.trace.Extends c'.trace block)
    (hr : c.registry.get? id = some r) (hsets : c.registry.Sets c'.registry id r')
    (hleads : r.Leads r') : c.Serves id c' :=
  ⟨hcircuit, ⟨block, hx⟩, ⟨r, r', hr, hsets.self, hleads⟩,
    fun other hne => .inl ((hsets other).trans (if_neg hne.symm))⟩

theorem trans (h : c.Serves id c') (hon : c.trace.enabled = true) (h' : c'.Serves id c'') :
    c.Serves id c'' := by
  obtain ⟨block, hx⟩ := h.told
  obtain ⟨block', hx'⟩ := h'.told
  obtain ⟨r, r', hr, hr', hleads⟩ := h.record
  obtain ⟨r₁, r'', hr₁, hr'', hleads'⟩ := h'.record
  cases hr'.symm.trans hr₁
  refine ⟨h'.circuit.trans h.circuit, ⟨_, hx.trans hx'⟩, ⟨r, r'', hr, hr'', hleads.trans hleads'⟩,
    fun other hne => ?_⟩
  rcases h.others other hne with hsame | ⟨hnone, hback⟩
  · rw [← hsame]
    exact h'.others other hne
  · -- A component that is back already stays as it is.
    refine .inr ⟨hnone, ?_⟩
    rcases h'.others other hne with hsame' | ⟨hnone', -⟩
    · exact hback.later hsame' (hx' (hx hon).1).2
    · obtain ⟨r, -, hr, -⟩ := hback
      rw [hnone'] at hr
      cases hr

end Serves

namespace Clear

/-- To serve a component keeps it clear. -/
theorem serves (h : c.Clear circuit id) (hs : c.Serves id c') : c'.Clear circuit id := by
  obtain ⟨block, hx⟩ := hs.told
  refine ⟨hs.circuit.trans h.circuit, (hx h.enabled).1, fun r' hr' hcreated => ?_⟩
  obtain ⟨r, r₁, hr, hr₁, hleads⟩ := hs.record
  cases hr'.symm.trans hr₁
  obtain ⟨hbefore, hslots⟩ := hleads.waiting hcreated
  rw [hslots]
  exact h.vacant r hr hbefore

/-- A component is run by a tidy body, and its children come back. -/
theorem trigger (h : c.Clear circuit id) (henter : enter.Tidy circuit) :
    (Action.trigger enter id).Yields c fun _ c' => c.Serves id c' := by
  cases hb : c.startable id with
  | error e => exact .of_error (trigger_refused hb)
  | ok body =>
    obtain ⟨r, hr, hs, -, hbody⟩ := of_startable hb
    have hruns : circuit.Runs body := ⟨_, _, h.circuit ▸ hbody⟩
    have hsets := Registry.sets_modify hr fun r => { r with stage := .running }
    have hbegun : c.trace.Extends (c.begun id).trace [.triggered id] := Trace.extends_record _ _
    have htidy := henter body hruns id (c.begun id) _ h.circuit (hbegun h.enabled).1 hsets.self
      (h.vacant r hr hs)
    cases he : enter body id (c.begun id) with
    | error f d => exact .of_error ((trigger_eq hb).trans (runBody_error he))
    | ok u d =>
      refine .of_ok ((trigger_eq hb).trans (runBody_ok he)) ?_
      have htidied := htidy u d he
      have ⟨slots, hwork, _⟩ := htidied
      obtain ⟨block, htold⟩ := hwork.told
      have hbody : (c.begun id).trace.Extends d.trace block := fun _ => ⟨hwork.enabled, htold⟩
      have hends : d.trace.Extends (d.ended id c.active).trace [.finished id] :=
        Trace.extends_record _ _
      have hfinish := Registry.sets_modify hwork.record fun r => { r with stage := .finished }
      refine ⟨hwork.circuit, ⟨_, (hbegun.trans hbody).trans hends⟩,
        ⟨r, _, hr, hfinish.self, rfl, fun hs => (by cases hs), fun hs => (by cases hs)⟩,
        fun other hne => ?_⟩
      have hend : (d.ended id c.active).registry.get? other = d.registry.get? other :=
        (hfinish other).trans (if_neg hne.symm)
      have hstart : (c.begun id).registry.get? other = c.registry.get? other :=
        (hsets other).trans (if_neg hne.symm)
      cases hget : c.registry.get? other with
      | some r' =>
        -- It was there before, and the body has left it alone.
        exact .inl (hend.trans (hwork.others other r' hne (hstart.trans hget)))
      | none =>
        cases hnew : d.registry.get? other with
        | none => exact .inl (hend.trans hnew)
        | some r' =>
          exact .inr ⟨rfl, htidied.returned c.active hne hnew (hstart.trans hget)⟩

/-- An input is counted. -/
theorem arrive (h : c.Clear circuit id) (henter : enter.Tidy circuit) (i : Nat) :
    (Action.arrive enter id i).Yields c fun _ c' => c.Serves id c' := by
  cases hr : c.registry.get? id with
  | none => exact .of_error (arrive_error (countInput_none hr))
  | some r =>
    cases hp : r.pending with
    | zero => exact .of_error (arrive_error (countInput_underflow hr hp))
    | succ n =>
      have hnext : c.Serves id (c.arrived id i n) :=
        .of_sets rfl (Trace.extends_record _ _) hr
          (Registry.sets_modify hr fun r => { r with pending := n })
          ⟨rfl, fun hs => ⟨hs, rfl⟩, fun hs => hs⟩
      by_cases hn : n = 0
      · subst hn
        exact .of_eq (arrive_last hr hp) (((h.serves hnext).trigger henter).mono
          fun _ _ hs => hnext.trans h.enabled hs)
      · exact .of_ok (arrive_waiting hr hp hn) hnext

/-- An input is written. -/
theorem writeInput (h : c.Clear circuit id) (henter : enter.Tidy circuit) (l : Nat) (v : Scalar) :
    (Action.writeInput enter id l v).Yields c fun _ c' => c.Serves id c' := by
  cases hi : c.inputSignal id l with
  | error e => exact .of_error (bind_error (look_error hi))
  | ok i =>
    cases hw : c.store.isWritten? i with
    | none => exact .of_error ((bind_ok (look_ok hi)).trans (bind_error (setSignal_none hw)))
    | some w =>
      obtain ⟨r, -, hr, -⟩ := of_inputSignal hi
      have hnext : c.Serves id (c.wrote i v) :=
        ⟨rfl, ⟨_, Trace.extends_record _ _⟩,
          ⟨r, r, hr, hr, rfl, fun hs => ⟨hs, rfl⟩, fun hs => hs⟩, fun _ _ => .inl rfl⟩
      exact .of_eq (writeInput_eq hi hw) (((h.serves hnext).arrive henter i).mono
        fun _ _ hs => hnext.trans h.enabled hs)

end Clear

/-! ## What a body does -/

namespace AtWork

variable {c₀ : Computation} {parent : Handle} {slots : Array (Option Handle)} {slot : Nat}

/-- At its beginning a body has done no work. -/
theorem begin (hr : c.registry.get? parent = some r) (hvacant : VacantFrom 0 r.slots)
    (hon : c.trace.enabled = true) : c.AtWork parent r r.slots c where
  begun := hr
  circuit := rfl
  enabled := hon
  told := ⟨[], (List.append_nil _).symm⟩
  record := hr
  others _ _ _ h := h
  children slot id h := absurd h (hvacant slot (Nat.zero_le slot) id)
  fresh id r' hnone h := by rw [hnone] at h; cases h

/-- What is in a slot is another component. -/
theorem slot_ne (h : c₀.AtWork parent r slots c) (hslot : slots[slot]? = some (some id)) :
    id ≠ parent := by
  rintro rfl
  have hnone := (h.children slot id hslot).1
  rw [h.begun] at hnone
  cases hnone

/-- Children may change in its care, and new components may come that are back already. -/
theorem move (h : c₀.AtWork parent r slots c) (hcircuit : c'.circuit = c.circuit)
    (hx : c.trace.Extends c'.trace block)
    (hmove : ∀ id, c'.registry.get? id = c.registry.get? id ∨
      ((∃ slot : Nat, slots[slot]? = some (some id)) ∧ c'.Cares parent id) ∨
      (c.registry.get? id = none ∧ c'.Returned id)) : c₀.AtWork parent r slots c' := by
  obtain ⟨hon, htrace⟩ := hx h.enabled
  -- A component that was there when the body began is in no slot, and it is not new.
  have hold : ∀ id r', c₀.registry.get? id = some r' → c.registry.get? id ≠ none →
      c'.registry.get? id = c.registry.get? id := by
    intro id r' hr' hsome
    rcases hmove id with hsame | ⟨⟨slot, hslot⟩, -⟩ | ⟨hnone, -⟩
    · exact hsame
    · have hnone := (h.children slot id hslot).1
      rw [hr'] at hnone
      cases hnone
    · exact absurd hnone hsome
  refine ⟨h.begun, hcircuit.trans h.circuit, hon, ?_, ?_, fun id r' hne hr' => ?_,
    fun slot id hslot => ⟨(h.children slot id hslot).1, ?_⟩, fun id r' hnone hr' => ?_⟩
  · obtain ⟨before, hbefore⟩ := h.told
    exact ⟨before ++ block, by rw [htrace, hbefore, List.append_assoc]⟩
  · rw [hold parent r h.begun (by rw [h.record]; simp)]
    exact h.record
  · have hc := h.others id r' hne hr'
    rw [hold id r' hr' (by rw [hc]; simp)]
    exact hc
  · rcases hmove id with hsame | ⟨-, hcares⟩ | ⟨hnone, -⟩
    · exact (h.children slot id hslot).2.later hsame htrace
    · exact hcares
    · obtain ⟨r', hr', -⟩ := (h.children slot id hslot).2
      rw [hnone] at hr'
      cases hr'
  · rcases hmove id with hsame | ⟨hslot, -⟩ | ⟨-, hback⟩
    · exact (h.fresh id r' hnone (hsame ▸ hr')).imp_right fun hback => hback.later hsame htrace
    · exact .inl hslot
    · exact .inr hback

/-- Nothing happens to the components. -/
theorem frame (h : c₀.AtWork parent r slots c) (hcircuit : c'.circuit = c.circuit)
    (hx : c.trace.Extends c'.trace block) (hr : c'.registry = c.registry) :
    c₀.AtWork parent r slots c' :=
  h.move hcircuit hx fun id => .inl (by rw [hr])

/-- What a slot holds is a child that the body has made and taken care of. -/
theorem clear (h : c₀.AtWork parent r slots c) (hslot : slots[slot]? = some (some id)) :
    c.Clear c₀.circuit id := by
  refine ⟨h.circuit, h.enabled, fun r₁ hr₁ hs => ?_⟩
  obtain ⟨r₂, hr₂, hcare⟩ := (h.children slot id hslot).2
  cases hr₁.symm.trans hr₂
  exact hcare.vacant hs

/-- Something is done for a child. -/
theorem serves (h : c₀.AtWork parent r slots c) (hslot : slots[slot]? = some (some id))
    (hs : c.Serves id c') : c₀.AtWork parent r slots c' := by
  obtain ⟨block, hx⟩ := hs.told
  refine h.move hs.circuit hx fun other => ?_
  by_cases he : other = id
  · subst he
    obtain ⟨r₁, r₂, hr₁, hr₂, hleads⟩ := hs.record
    obtain ⟨r₃, hr₃, hparent, hvacant, htold⟩ := (h.children slot other hslot).2
    cases hr₁.symm.trans hr₃
    refine .inr (.inl ⟨⟨slot, hslot⟩, r₂, hr₂, hleads.parent.trans hparent, fun hcreated => ?_,
      fun hreleased => ?_⟩)
    · obtain ⟨hbefore, hslots⟩ := hleads.waiting hcreated
      rw [hslots]
      exact hvacant hbefore
    · rw [(hx h.enabled).2]
      exact List.mem_append_left _ (htold (hleads.released hreleased))
  · exact (hs.others other he).imp_right .inr

/-- A child is put into an empty slot. -/
theorem adopt (h : c₀.AtWork parent r slots c) (hcircuit : c'.circuit = c.circuit)
    (hx : c.trace.Extends c'.trace block) (hslot : slot < slots.size)
    (hvacant : ∀ other, slots[slot]? ≠ some (some other)) (hfree : c.registry.get? id = none)
    {reg : Registry} (hkeep : c.registry.Sets reg parent
      { r with slots := slots.setIfInBounds slot (some id) })
    (hnew : reg.Sets c'.registry id r') (hcare : r'.InCare c'.trace parent id) :
    c₀.AtWork parent r (slots.setIfInBounds slot (some id)) c' := by
  obtain ⟨hon, htrace⟩ := hx h.enabled
  have hne : id ≠ parent := by
    rintro rfl
    rw [h.record] at hfree
    cases hfree
  have hsame : ∀ other, other ≠ parent → other ≠ id →
      c'.registry.get? other = c.registry.get? other := by
    intro other hself hid
    rw [hnew other, if_neg hid.symm, hkeep other, if_neg hself.symm]
  have hnone : c₀.registry.get? id = none := by
    cases hget : c₀.registry.get? id with
    | none => rfl
    | some r₀ =>
      rw [h.others id r₀ hne hget] at hfree
      cases hfree
  have hcares : c'.Cares parent id := ⟨r', hnew.self, hcare⟩
  -- Whatever was in another slot is there still.
  have hslots : ∀ (j : Nat) (other : Handle), slots[j]? = some (some other) →
      (slots.setIfInBounds slot (some id))[j]? = some (some other) := by
    intro j other hj
    have hjne : slot ≠ j := by
      rintro rfl
      exact hvacant other hj
    rw [Array.getElem?_setIfInBounds_ne hjne]
    exact hj
  refine ⟨h.begun, hcircuit.trans h.circuit, hon, ?_, ?_, fun other r₁ hother hr₁ => ?_,
    fun j other hj => ?_, fun other r₁ hnone₁ hr₁ => ?_⟩
  · obtain ⟨before, hbefore⟩ := h.told
    exact ⟨before ++ block, by rw [htrace, hbefore, List.append_assoc]⟩
  · rw [hnew parent, if_neg hne]
    exact hkeep.self
  · rw [hsame other hother ?_]
    · exact h.others other r₁ hother hr₁
    · rintro rfl
      rw [hnone] at hr₁
      cases hr₁
  · by_cases hid : other = id
    · subst hid
      exact ⟨hnone, hcares⟩
    · have hjne : slot ≠ j := by
        rintro rfl
        rw [Array.getElem?_setIfInBounds_self_of_lt hslot] at hj
        cases hj
        exact hid rfl
      rw [Array.getElem?_setIfInBounds_ne hjne] at hj
      obtain ⟨hold, hcares⟩ := h.children j other hj
      exact ⟨hold, hcares.later (hsame other (h.slot_ne hj) hid) htrace⟩
  · by_cases hid : other = id
    · subst hid
      exact .inl ⟨slot, Array.getElem?_setIfInBounds_self_of_lt hslot⟩
    · have hself : other ≠ parent := by
        rintro rfl
        rw [h.begun] at hnone₁
        cases hnone₁
      have hget := hsame other hself hid
      rcases h.fresh other r₁ hnone₁ (hget ▸ hr₁) with ⟨j, hj⟩ | hback
      · exact .inl ⟨j, hslots j other hj⟩
      · exact .inr (hback.later hget htrace)

/-- A child is created in an empty slot, and runs if it has no inputs. -/
theorem createChild (h : c₀.AtWork parent r slots c) (henter : enter.Tidy c₀.circuit)
    (hvacant : VacantFrom slot slots) (t : TemplateId) (start : Nat) (label : String) :
    (Action.createChild enter parent slot id t start label).Yields c fun _ c' =>
      c₀.AtWork parent r (slots.setIfInBounds slot (some id)) c' := by
  by_cases hslot : slot < slots.size
  · refine .of_eq (bind_ok (keepChild_ok h.record hslot)) ?_
    cases ht : (c.kept parent slot id).circuit.templates.shape? t with
    | none => exact .of_error (create_unknown ht)
    | some shape =>
      cases hr : (c.kept parent slot id).registry.create id
          (Component.fresh t start shape.inputCounter shape.slots label (some parent)) with
      | error d => exact .of_error (create_refused ht hr)
      | ok reg =>
        have hkeep : c.registry.Sets (c.kept parent slot id).registry parent
            { r with slots := slots.setIfInBounds slot (some id) } :=
          Registry.sets_modify h.record _
        have hfree : c.registry.get? id = none := by
          have hnone := (Registry.create_ok hr).1
          rw [hkeep id] at hnone
          by_cases hid : parent = id
          · rw [if_pos hid] at hnone
            cases hnone
          · rwa [if_neg hid] at hnone
        have hx : c.trace.Extends ((c.kept parent slot id).enrolled reg id t).trace
            [.created id t] := Trace.extends_record _ _
        have hnext : c₀.AtWork parent r (slots.setIfInBounds slot (some id))
            ((c.kept parent slot id).enrolled reg id t) :=
          h.adopt rfl hx hslot (hvacant slot (Nat.le_refl slot)) hfree hkeep
            (Registry.sets_create hr)
            ⟨rfl, fun _ => vacantFrom_replicate 0 shape.slots, fun hs => (by cases hs)⟩
        have hself : (slots.setIfInBounds slot (some id))[slot]? = some (some id) :=
          Array.getElem?_setIfInBounds_self_of_lt hslot
        by_cases hn : shape.inputs = 0
        · exact .of_eq ((create_ok ht hr).trans (if_pos hn))
            (((hnext.clear hself).trigger henter).mono fun _ _ hs => hnext.serves hself hs)
        · exact .of_ok ((create_ok ht hr).trans (if_neg hn)) hnext
  · have hfail : Action.keepChild parent slot id c
        = .error (.refused (c.defect parent (.slotOutOfRange slot slots.size))) c := by
      unfold Action.keepChild
      rw [bind_ok (look_ok (component_eq h.record)), if_pos (Nat.not_lt.mp hslot)]
      rfl
    exact .of_error (bind_error hfail)

/-- To release one of the children keeps a body at work, and so does a walk along the slots. -/
theorem release (h : c₀.AtWork parent r slots c) (hslot : slots[slot]? = some (some id)) :
    (Action.release (some id)).Yields c fun _ c' => c₀.AtWork parent r slots c' := by
  obtain ⟨r₁, hr₁, hparent, -⟩ := (h.children slot id hslot).2
  rcases release_cases (some id) c with ⟨e, hend⟩ | ⟨hend, -⟩ | ⟨_, r₂, hid, hr₂, hs, hend⟩
  · exact .of_error hend
  · exact .of_ok hend h
  · cases hid
    cases hr₁.symm.trans hr₂
    have hsets := Registry.sets_modify hr₁ fun r =>
      { r with slots := if c.config.reclaim then #[] else r.slots, stage := .released }
    have hx : c.trace.Extends (c.dropped id).trace [.released id] := Trace.extends_record _ _
    refine .of_ok hend (h.move rfl hx fun other => ?_)
    by_cases he : id = other
    · subst he
      refine .inr (.inl ⟨⟨slot, hslot⟩, _, hsets.self, hparent, fun hs => (by cases hs),
        fun _ => ?_⟩)
      rw [(hx h.enabled).2]
      exact List.mem_append_right _ (List.mem_singleton.mpr rfl)
    · exact .inl ((hsets other).trans (if_neg he))

theorem releaseAll (h : c₀.AtWork parent r slots c) {children : List (Option Handle)}
    (hslots : ∀ id, some id ∈ children → ∃ slot : Nat, slots[slot]? = some (some id)) :
    (Action.releaseAll children).Yields c fun _ c' => c₀.AtWork parent r slots c' := by
  induction children generalizing c with
  | nil => exact .of_ok rfl h
  | cons child rest ih =>
    have hrest := fun id hid => hslots id (List.mem_cons_of_mem child hid)
    refine .bind ?_
    cases child with
    | none => exact .of_ok rfl (ih h hrest)
    | some first =>
      obtain ⟨slot, hslot⟩ := hslots first (List.mem_cons_self ..)
      exact (h.release hslot).mono fun _ c₁ hwork => ih hwork hrest

/-- All children are released. -/
theorem releaseChildren (h : c₀.AtWork parent r slots c) :
    (Action.releaseChildren parent).Yields c fun _ c' => c₀.Tidied parent r c' := by
  have hslots : ∀ id, some id ∈ slots.toList ↔ ∃ slot : Nat, slots[slot]? = some (some id) :=
    fun id => by simp only [List.mem_iff_getElem?, Array.getElem?_toList]
  intro u c' hend
  have hwalk : Action.releaseAll slots.toList c = .ok u c' :=
    (releaseChildren_eq h.record).symm.trans hend
  exact ⟨slots, h.releaseAll (fun id hid => (hslots id).mp hid) u c' hwalk,
    fun slot id hslot => releaseAll_returns hwalk ((hslots id).mpr ⟨slot, hslot⟩)⟩

/-- Without children there is nothing to release. -/
theorem tidied (h : c₀.AtWork parent r slots c) (hvacant : VacantFrom 0 slots) :
    c₀.Tidied parent r c :=
  ⟨slots, h, fun slot id hslot => absurd hslot (hvacant slot (Nat.zero_le slot) id)⟩

end AtWork
end Computation

/-! ## Procedures -/

/-- What every request keeps, a procedure keeps. -/
theorem Procedure.Asks.yields {α : Type} {ok : Request → Prop} {p : Procedure α} (hp : p.Asks ok)
    {enter : Enter} {I : Computation → Prop}
    (hkeep : ∀ q c, ok q → I c → (q.perform enter).Yields c fun _ => I) {c : Computation}
    (hc : I c) : Procedure.Yields enter p c fun _ => I := by
  intro a c' hrun
  replace hrun := runWith_ok_iff.mp hrun
  obtain ⟨hstrict, honly⟩ := hp
  generalize ExceptT.run p = tree at hstrict honly hrun
  induction tree generalizing c with
  | done res =>
    cases hrun
    exact hc
  | ask q next ih =>
    cases hq : q.perform enter c with
    | error f d =>
      cases f with
      | refused e =>
        rw [runWith_refused hq, hstrict.1 e] at hrun
        cases hrun
      | outOfRange | tooDeep => cases (runWith_lost hq fun e => by simp).symm.trans hrun
    | ok b d =>
      rw [runWith_answered hq] at hrun
      exact ih (.ok b) (hkeep q c honly.1 hc b d hq) (hstrict.2 b) (honly.2 (.ok b)) hrun

/-- A request that asks what there is, or reads or writes a signal, and touches no component. -/
def Request.Still : Request → Prop
  | .signal _ | .setSignal _ _ | .constant _ | .signalStart _ | .handleAfter _ _ | .child _ _
  | .label _ | .assert _ _ _ => True
  | _ => False

namespace Computation.AtWork

variable {c₀ c : Computation} {parent id : Handle} {r : Component}
  {slots : Array (Option Handle)} {slot : Nat} {enter : Enter}

/-- A still request changes nothing that a body at work relies on. -/
theorem still (h : c₀.AtWork parent r slots c) {q : Request} (hq : q.Still) :
    (q.perform enter).Yields c fun _ c' => c₀.AtWork parent r slots c' := by
  intro a c' hact
  have hafter := after_ok hact
  cases q with
  | signal i =>
    cases hw : c.store.isWritten? i with
    | none => cases (show Action.signal i c = _ from bind_error (inRange_none hw)).symm.trans hact
    | some w =>
      obtain rfl : c.recorded (.signalRead i w) = c' := (after_signal hw).symm.trans hafter
      exact h.frame rfl (Trace.extends_record _ _) rfl
  | setSignal i v =>
    cases hw : c.store.isWritten? i with
    | none => cases (setSignal_none hw).symm.trans hact
    | some w =>
      cases (setSignal_ok hw).symm.trans hact
      exact h.frame rfl (Trace.extends_record _ _) rfl
  | constant i =>
    obtain rfl : c = c' := (after_inRange _).symm.trans hafter
    exact h
  | signalStart id | handleAfter id offset | child id slot | assert id v line =>
    obtain rfl : c = c' := (after_look _).symm.trans hafter
    exact h
  | label id =>
    cases hact
    exact h
  | _ => exact hq.elim

/-! ### The same, as a procedure -/

theorem asks {α : Type} (h : c₀.AtWork parent r slots c) {p : Procedure α}
    (hp : p.Asks Request.Still) :
    Procedure.Yields enter p c fun _ c' => c₀.AtWork parent r slots c' :=
  hp.yields (fun _ _ hq h => h.still hq) h

/-- A request that touches no component, and what follows it. -/
theorem ask {β : Type} {Q : β → Computation → Prop} (h : c₀.AtWork parent r slots c) {q : Request}
    {f : q.Answer → Procedure β} (hq : q.Still)
    (hf : ∀ a c', c₀.AtWork parent r slots c' → Procedure.Yields enter (f a) c' Q) :
    Procedure.Yields enter (Procedure.request q >>= f) c Q :=
  .bind (.request ((h.still hq).mono hf))

/-- A child that is created goes into the next slot. -/
theorem creates (h : c₀.AtWork parent r slots c) (henter : enter.Tidy c₀.circuit)
    (hvacant : VacantFrom slot slots) {t : TemplateId} {start : Nat} {label : String} :
    Procedure.Yields enter (Procedure.createChild parent slot id t start label) c fun _ c' =>
      c₀.AtWork parent r (slots.setIfInBounds slot (some id)) c' :=
  .request (h.createChild henter hvacant t start label)

/-- The answer is a child in the care of the component. -/
theorem names (h : c₀.AtWork parent r slots c) :
    Procedure.Yields enter (Procedure.child parent slot) c fun id c' =>
      slots[slot]? = some (some id) ∧ c₀.AtWork parent r slots c' := by
  refine .request (.look fun id hid => ⟨?_, h⟩)
  unfold Computation.child at hid
  rw [component_eq h.record] at hid
  dsimp only at hid
  split at hid
  · rename_i child hchild
    cases hid
    exact hchild
  · cases hid
  · cases hid

/-- Inputs are written to children only, and these run to their ends. -/
theorem writes (h : c₀.AtWork parent r slots c) (henter : enter.Tidy c₀.circuit)
    (hslot : slots[slot]? = some (some id)) {l : Nat} {v : Scalar} :
    Procedure.Yields enter (Procedure.writeInput id l v) c fun _ c' =>
      c₀.AtWork parent r slots c' :=
  .request (((h.clear hslot).writeInput henter l v).mono fun _ _ hs => h.serves hslot hs)

/-- At the end all children are released, and the body has tidied up. -/
theorem releases (h : c₀.AtWork parent r slots c) :
    Procedure.Yields enter (Procedure.releaseChildren parent) c fun _ c' =>
      c₀.Tidied parent r c' :=
  .request h.releaseChildren

end Computation.AtWork

/-! ## Tidy circuits -/

/-- A body that is tidy, if the bodies that it enters are. -/
def Body.Tidy (body : Body) : Prop :=
  ∀ circuit enter, Enter.Tidy circuit enter →
    ∀ id, Action.Tidy circuit id (Procedure.runWith enter (body id))

/-- A body without children is tidy. -/
theorem Body.Tidy.of_still {body : Body} (h : ∀ id, (body id).Asks Request.Still) :
    body.Tidy := by
  rintro _ enter - id c r rfl hon hr hvacant
  exact ((Computation.AtWork.begin hr hvacant hon).asks (h id)).mono
    fun _ _ h => h.tidied hvacant

/-- **In a circuit of tidy bodies, every body is tidy when it is entered.** -/
theorem Circuit.tidy {circuit : Circuit} (h : ∀ body, circuit.Runs body → body.Tidy)
    (levels : Nat) : (enterWithin levels).Tidy circuit := by
  induction levels with
  | zero => exact fun body _ id c r _ _ _ _ => .of_error rfl
  | succ levels ih => exact fun body hbody id => h body hbody circuit _ ih id

/-! ## Compiled bodies -/

/-- A request that a circuit compiler writes. -/
def Request.Compiled (q : Request) : Prop :=
  match q with
  | .createChild _ _ _ _ _ _ | .writeInput _ _ _ | .releaseChildren _ => True
  | q => q.Still

theorem Request.Still.compiled {q : Request} (h : q.Still) : q.Compiled := by
  cases q with
  | createChild | writeInput | releaseChildren => trivial
  | _ => exact h

theorem Request.Compiled.noCount {q : Request} (h : q.Compiled) : q.NoCount := by
  rintro id rfl
  exact h

/-- A body as a circuit compiler writes it: it ends with the first refusal that it is told of,
    makes no unusual requests, and is tidy. -/
structure Body.Compiled (body : Body) : Prop where
  asks : ∀ id, (body id).Asks Request.Compiled
  tidy : body.Tidy

/-- A body without children. -/
theorem Body.Compiled.of_still {body : Body} (h : ∀ id, (body id).Asks Request.Still) :
    body.Compiled :=
  ⟨fun id => (h id).mono fun _ => Request.Still.compiled, .of_still h⟩

/-- All bodies of the circuit are compiled ones. -/
def Circuit.Compiled (circuit : Circuit) : Prop := ∀ body, circuit.Runs body → body.Compiled

namespace Circuit.Compiled

variable {circuit : Circuit}

theorem strict (h : circuit.Compiled) : circuit.Strict :=
  fun body hbody id => ((h body hbody).asks id).strict

theorem only (h : circuit.Compiled) : circuit.Only Request.NoCount :=
  fun body hbody id => ((h body hbody).asks id).only.mono fun _ => Request.Compiled.noCount

/-- Compiled bodies are tidy, by induction on how deep they are entered. -/
theorem tidy (h : circuit.Compiled) (levels : Nat) : (enterWithin levels).Tidy circuit :=
  Circuit.tidy (fun body hbody => (h body hbody).tidy) levels

end Circuit.Compiled
end CircuitWitness
