import CircuitWitness.Proofs.Run
/-
  Release is idempotent.

  What releases have done is told by the list of the components that were freed
  (`Computation.Frees`): each had finished, its record shows the new stage and has lost its slots
  where they are reclaimed, one event says so, and nothing else has happened.  The walk over the
  children of a component prepends one such list to another, whatever handles it meets and however
  it ends.

  The crux is the second walk.  It does not go over the list of the first one: the handles are read
  again, and a component that holds its own handle may have lost its slots on the way.  But it can
  only have lost them, so every handle of the second walk was one of the first; and a handle that a
  walk has passed is released, and stays so, whether or not the walk comes to it again.
-/

namespace CircuitWitness

open CircuitWitness.Action

variable {c c' c'' : Computation} {id : Handle} {ids ids' : List Handle}
  {children : List (Option Handle)}

/-! ## What releases have done -/

/-- The record of a component after its release. -/
def Component.freed (reclaim : Bool) (r : Component) : Component :=
  { r with slots := if reclaim then #[] else r.slots, stage := .released }

/-- Components that had finished were released, one after another, and nothing else has happened. -/
structure Computation.Frees (c c' : Computation) (ids : List Handle) : Prop where
  finished : ∀ id ∈ ids, c.registry.stage? id = some .finished
  once : ids.Nodup
  freed : ∀ id ∈ ids,
    c'.registry.get? id = (c.registry.get? id).map (Component.freed c.config.reclaim)
  others : ∀ id, id ∉ ids → c'.registry.get? id = c.registry.get? id
  capacity : c'.registry.capacity = c.registry.capacity
  trace : c'.trace = (ids.map Event.released).foldl Trace.record c.trace
  rest : c' = { c with registry := c'.registry, trace := c'.trace }

namespace Computation.Frees

theorem refl (c : Computation) : c.Frees c [] where
  finished := fun _ h => by cases h
  once := .nil
  freed := fun _ h => by cases h
  others := fun _ _ => rfl
  capacity := rfl
  trace := rfl
  rest := rfl

/-- A finished component is dropped. -/
theorem dropped (hs : c.registry.stage? id = some .finished) : c.Frees (c.dropped id) [id] where
  finished := fun other h => by rw [List.mem_singleton.mp h, hs]
  once := by simp
  freed := fun other h => by
    rw [List.mem_singleton.mp h]
    show (c.registry.modify id _).get? id = _
    rw [Registry.get?_modify, if_pos rfl]
    rfl
  others := fun other h => by
    show (c.registry.modify id _).get? other = _
    rw [Registry.get?_modify, if_neg fun he => h (List.mem_singleton.mpr he.symm)]
  capacity := Registry.capacity_modify ..
  trace := rfl
  rest := rfl

/-- The freed components are released now, and all others are in the stage they were in. -/
theorem stage? (h : c.Frees c' ids) (id : Handle) :
    c'.registry.stage? id = if id ∈ ids then some .released else c.registry.stage? id := by
  unfold Registry.stage?
  split
  · rename_i hid
    obtain ⟨r, hr, -⟩ := Registry.stage?_eq_some.mp (h.finished id hid)
    rw [h.freed id hid, hr]
    rfl
  · rename_i hid
    rw [h.others id hid]

/-- Who was released stays so. -/
theorem stays (h : c.Frees c' ids) (hs : c.registry.stage? id = some .released) :
    c'.registry.stage? id = some .released := by
  rw [h.stage?, hs, ite_self]

/-- Nothing is freed twice, so two lists make up one. -/
theorem trans (h : c.Frees c' ids) (h' : c'.Frees c'' ids') : c.Frees c'' (ids ++ ids') := by
  have hconfig : c'.config = c.config := by rw [h.rest]
  have hapart : ∀ id ∈ ids, id ∉ ids' := by
    intro id hid hid'
    have hs := h'.finished id hid'
    rw [h.stage?, if_pos hid] at hs
    cases hs
  constructor
  · intro id hid
    rcases List.mem_append.mp hid with hid | hid
    · exact h.finished id hid
    · have hs := h'.finished id hid
      rwa [h.stage?, if_neg fun hin => hapart id hin hid] at hs
  · exact List.nodup_append.mpr
      ⟨h.once, h'.once, fun a ha b hb he => hapart a ha (he ▸ hb)⟩
  · intro id hid
    rcases List.mem_append.mp hid with hid | hid
    · rw [h'.others id (hapart id hid), h.freed id hid]
    · rw [h'.freed id hid, h.others id fun hin => hapart id hin hid, hconfig]
  · intro id hid
    rw [List.mem_append, not_or] at hid
    rw [h'.others id hid.2, h.others id hid.1]
  · exact h'.capacity.trans h.capacity
  · rw [h'.trace, h.trace, List.map_append, List.foldl_append]
  · rw [h'.rest, h.rest]

/-- A component loses its slots or keeps them. -/
theorem slots (h : c.Frees c' ids) {r : Component} (hr : c.registry.get? id = some r) :
    ∃ r', c'.registry.get? id = some r' ∧ (r'.slots = r.slots ∨ r'.slots = #[]) := by
  by_cases hid : id ∈ ids
  · refine ⟨r.freed c.config.reclaim, by rw [h.freed id hid, hr]; rfl, ?_⟩
    unfold Component.freed
    cases c.config.reclaim
    · exact .inl rfl
    · exact .inr rfl
  · exact ⟨r, by rw [h.others id hid, hr], .inl rfl⟩

end Computation.Frees

/-! ## One release -/

theorem release_frees (child : Option Handle) (c : Computation) :
    ∃ ids, (∀ id ∈ ids, child = some id) ∧ c.Frees ((release child).after c) ids := by
  rcases release_cases child c with ⟨e, h⟩ | ⟨h, -⟩ | ⟨id, r, rfl, hr, hs, h⟩
  · rw [after_error h]
    exact ⟨[], by simp, .refl c⟩
  · rw [after_ok h]
    exact ⟨[], by simp, .refl c⟩
  · rw [after_ok h]
    refine ⟨[id], fun other hid => ?_, .dropped (Registry.stage?_eq_some.mpr ⟨r, hr, hs⟩)⟩
    rw [List.mem_singleton.mp hid]

/-- A release that fails is a refusal and changes nothing. -/
theorem release_fails {child : Option Handle} {f : Fault} (h : release child c = .error f c') :
    (∃ e, f = .refused e) ∧ c' = c := by
  rcases release_cases child c with ⟨e, h'⟩ | ⟨h', -⟩ | ⟨id, r, -, -, -, h'⟩
  · cases h.symm.trans h'
    exact ⟨⟨e, rfl⟩, rfl⟩
  · cases h.symm.trans h'
  · cases h.symm.trans h'

/-- After a release the component is released. -/
theorem release_returns {child : Option Handle} (h : release child c = .ok () c')
    (hid : child = some id) : c'.registry.stage? id = some .released := by
  rcases release_cases child c with ⟨e, h'⟩ | ⟨h', hs⟩ | ⟨other, r, he, hr, hs, h'⟩
  · cases h.symm.trans h'
  · cases h.symm.trans h'
    exact hs id hid
  · cases h.symm.trans h'
    cases he.symm.trans hid
    have hstage := Registry.stage?_eq_some.mpr ⟨r, hr, hs⟩
    rw [(Computation.Frees.dropped hstage).stage?, if_pos (List.mem_singleton_self _)]

/-- Nothing is done for a component that is released. -/
theorem release_released {child : Option Handle}
    (h : ∀ id, child = some id → c.registry.stage? id = some .released) :
    release child c = .ok () c := by
  cases child with
  | none => rfl
  | some id =>
    obtain ⟨r, hr, hs⟩ := Registry.stage?_eq_some.mp (h id rfl)
    exact release_again hr hs

/-! ## Many releases -/

theorem releaseAll_frees (children : List (Option Handle)) (c : Computation) :
    ∃ ids, (∀ id ∈ ids, some id ∈ children) ∧ c.Frees ((releaseAll children).after c) ids := by
  induction children generalizing c with
  | nil => exact ⟨[], by simp, .refl c⟩
  | cons child rest ih =>
    obtain ⟨first, hfirst, hfrees⟩ := release_frees child c
    show ∃ ids, _ ∧ c.Frees ((release child >>= fun _ => releaseAll rest).after c) ids
    cases hr : release child c with
    | error f d =>
      rw [after_error hr] at hfrees
      rw [after_error (bind_error hr)]
      exact ⟨first, fun id hid => hfirst id hid ▸ List.mem_cons_self .., hfrees⟩
    | ok u d =>
      rw [after_ok hr] at hfrees
      rw [after_bind hr]
      obtain ⟨more, hmore, hfrees'⟩ := ih d
      refine ⟨first ++ more, fun id hid => ?_, hfrees.trans hfrees'⟩
      rcases List.mem_append.mp hid with hid | hid
      · rw [hfirst id hid]
        exact List.mem_cons_self ..
      · exact List.mem_cons_of_mem child (hmore id hid)

/-- After a walk that was accepted, every component on the list is released. -/
theorem releaseAll_returns (h : releaseAll children c = .ok () c') (hid : some id ∈ children) :
    c'.registry.stage? id = some .released := by
  induction children generalizing c with
  | nil => cases hid
  | cons child rest ih =>
    obtain ⟨u, d, hfirst, hrest⟩ := of_bind_ok h
    rcases List.mem_cons.mp hid with hid | hid
    · -- It is released at once, and the rest of the walk leaves it so.
      obtain ⟨ids, -, hfrees⟩ := releaseAll_frees rest d
      rw [after_ok hrest] at hfrees
      exact hfrees.stays (release_returns hfirst hid.symm)
    · exact ih hrest hid

/-- Nothing is done for components that are released. -/
theorem releaseAll_released (h : ∀ id, some id ∈ children → c.registry.stage? id = some .released) :
    releaseAll children c = .ok () c := by
  induction children with
  | nil => rfl
  | cons child rest ih =>
    have hfirst : release child c = .ok () c :=
      release_released fun id hid => h id (hid ▸ List.mem_cons_self ..)
    show (release child >>= fun _ => releaseAll rest) c = _
    rw [bind_ok hfirst]
    exact ih fun id hid => h id (List.mem_cons_of_mem child hid)

/-! ## The children of a component -/

/-- The handles are read before the walk. -/
theorem releaseChildren_eq {parent : Handle} {r : Component}
    (hr : c.registry.get? parent = some r) :
    releaseChildren parent c = releaseAll r.slots.toList c := by
  unfold releaseChildren
  rw [bind_ok (look_ok (component_eq hr))]

theorem releaseChildren_unknown {parent : Handle} (hr : c.registry.get? parent = none) :
    releaseChildren parent c = .error (.refused (c.defect parent .unknownComponent)) c :=
  bind_error (look_error (component_none hr))

theorem releaseChildren_frees (parent : Handle) (c : Computation) :
    ∃ ids, (∀ id ∈ ids, ∃ r, c.registry.get? parent = some r ∧ some id ∈ r.slots) ∧
      c.Frees ((releaseChildren parent).after c) ids := by
  cases hr : c.registry.get? parent with
  | none =>
    rw [after_error (releaseChildren_unknown hr)]
    exact ⟨[], by simp, .refl c⟩
  | some r =>
    obtain ⟨ids, hids, hfrees⟩ := releaseAll_frees r.slots.toList c
    refine ⟨ids, fun id hid => ⟨r, rfl, Array.mem_toList_iff.mp (hids id hid)⟩, ?_⟩
    unfold after at hfrees ⊢
    rwa [releaseChildren_eq hr]

/-- **The second walk finds nothing to do.** -/
theorem releaseChildren_twice {parent : Handle} (h : releaseChildren parent c = .ok () c') :
    releaseChildren parent c' = .ok () c' := by
  cases hr : c.registry.get? parent with
  | none => cases (releaseChildren_unknown hr).symm.trans h
  | some r =>
    obtain ⟨ids, -, hfrees⟩ := releaseChildren_frees parent c
    rw [after_ok h] at hfrees
    rw [releaseChildren_eq hr] at h
    obtain ⟨r', hr', hslots⟩ := hfrees.slots hr
    rw [releaseChildren_eq hr']
    refine releaseAll_released fun id hid => releaseAll_returns h ?_
    rcases hslots with hslots | hslots
    · rwa [hslots] at hid
    · rw [hslots] at hid
      cases hid

/-! ## The theorem -/

/-- **Release is idempotent.**  Whatever the state, for any handle and any component:

    * a release frees at most the component with that handle, and the release of children at most
      those that the slots of the component hold, refused or not: each of these had finished, its
      record becomes that of a released component, and nothing else changes but for the events that
      say so;
    * a release that fails is a refusal and changes nothing at all;
    * after a release that is accepted, the component is released; after the release of children is
      accepted, so is every component that a slot held;
    * after either is accepted, asking for it again is accepted and changes nothing. -/
theorem Request.release_idempotent (enter : Enter) (c : Computation) (child : Option Handle)
    (parent : Handle) :
    (∃ ids, (∀ id ∈ ids, child = some id) ∧
      c.Frees (((Request.release child).perform enter).after c) ids) ∧
    (∃ ids, (∀ id ∈ ids, ∃ r, c.registry.get? parent = some r ∧ some id ∈ r.slots) ∧
      c.Frees (((Request.releaseChildren parent).perform enter).after c) ids) ∧
    (∀ f c', (Request.release child).perform enter c = .error f c' →
      (∃ e, f = .refused e) ∧ c' = c) ∧
    (∀ c', (Request.release child).perform enter c = .ok () c' →
      (∀ id, child = some id → c'.registry.stage? id = some .released) ∧
      (Request.release child).perform enter c' = .ok () c') ∧
    ∀ c', (Request.releaseChildren parent).perform enter c = .ok () c' →
      (∀ r id, c.registry.get? parent = some r → some id ∈ r.slots →
        c'.registry.stage? id = some .released) ∧
      (Request.releaseChildren parent).perform enter c' = .ok () c' := by
  refine ⟨release_frees child c, releaseChildren_frees parent c, fun f c' h => release_fails h,
    fun c' h => ?_, fun c' h => ⟨fun r id hr hid => ?_, releaseChildren_twice h⟩⟩
  · have hstage : ∀ id, child = some id → c'.registry.stage? id = some .released :=
      fun id hid => release_returns h hid
    exact ⟨hstage, release_released hstage⟩
  · have hwalk : releaseAll r.slots.toList c = .ok () c' := (releaseChildren_eq hr).symm.trans h
    exact releaseAll_returns hwalk (Array.mem_toList_iff.mpr hid)

/-- In the small circuit the main component has finished, and its slot holds its own handle. -/
def relayKnotted : Computation :=
  ((Request.createChild ⟨0⟩ 0 ⟨0⟩ ⟨0⟩ 1 "main").perform (enterWithin 2)).after relayOwned

/-- The same where a component is its own child: it is released by itself, and once. -/
theorem Request.release_idempotent_relay :
    ((Request.releaseChildren ⟨0⟩).perform (enterWithin 2)).after relayKnotted
      = relayKnotted.dropped ⟨0⟩ ∧
    (relayKnotted.dropped ⟨0⟩).registry.stage? ⟨0⟩ = some .released ∧
    (Request.releaseChildren ⟨0⟩).perform (enterWithin 2) (relayKnotted.dropped ⟨0⟩)
      = .ok () (relayKnotted.dropped ⟨0⟩) := by
  have hmain : relayKnotted.registry.get? ⟨0⟩
      = some ⟨⟨0⟩, 1, 0, #[some ⟨0⟩], none, "main", .finished⟩ := by decide +kernel
  have hrun : (Request.releaseChildren ⟨0⟩).perform (enterWithin 2) relayKnotted
      = .ok () (relayKnotted.dropped ⟨0⟩) :=
    (releaseChildren_eq hmain).trans (bind_ok (release_ok hmain rfl))
  obtain ⟨-, -, -, -, hagain⟩ := release_idempotent (enterWithin 2) relayKnotted none ⟨0⟩
  obtain ⟨hreleased, hsame⟩ := hagain _ hrun
  exact ⟨after_ok hrun, hreleased _ ⟨0⟩ hmain (by simp), hsame⟩

end CircuitWitness
