import CircuitWitness.Proofs.Brackets
/-
  How many components there are of one kind.

  The number of handles is fixed when a computation starts, so whatever is counted among the
  records is bounded once and for all.  Two counts matter: the components that exist, and those
  whose bodies have begun.  The second is what keeps bodies from starting each other for ever: it
  goes up with every body that goes onto the stack, and no step takes it down.
-/

namespace CircuitWitness

variable {π : Policy}

namespace Registry

variable {reg reg' : Registry} {id : Handle} {r : Component} {p : Component → Bool}

/-- How many components have a property. -/
def tally (reg : Registry) (p : Component → Bool) : Nat := reg.records.countP (Option.any p)

/-- The components that were created are those with a record of any kind. -/
theorem created_eq_tally (reg : Registry) : reg.created = reg.tally fun _ => true := by
  have hsome : (Option.any fun _ : Component => true) = Option.isSome := by
    funext slot
    cases slot <;> rfl
  unfold created tally
  rw [hsome]

/-- There are no more records than room. -/
theorem tally_le_capacity (reg : Registry) (p : Component → Bool) : reg.tally p ≤ reg.capacity :=
  Array.countP_le_size

theorem tally_empty (n : Nat) (p : Component → Bool) : (empty n).tally p = 0 := by
  unfold tally empty
  simp [Array.countP_replicate]

/-- Putting an element into a list changes a count by what it counts and the old one counted. -/
theorem countP_set_add {α : Type} {p : α → Bool} {l : List α} {i : Nat} (h : i < l.length)
    (a : α) : (l.set i a).countP p + (p l[i]).toNat = l.countP p + (p a).toNat := by
  have hpos : p l[i] = true → 0 < l.countP p := fun hp =>
    List.countP_pos_iff.mpr ⟨_, List.getElem_mem h, hp⟩
  rw [List.countP_set h]
  cases hold : p l[i] <;> cases p a <;> simp_all

/-- Only declared handles are in use. -/
theorem lt_of_get? (h : reg.get? id = some r) : id.index < reg.capacity := by
  by_contra hge
  unfold get? at h
  rw [Array.getElem?_eq_none (Nat.le_of_not_lt hge)] at h
  cases h

/-- A registry is known by its capacity and what its handles find. -/
theorem ext_get? (hcap : reg'.capacity = reg.capacity)
    (h : ∀ other, reg'.get? other = reg.get? other) : reg' = reg := by
  obtain ⟨records⟩ := reg
  obtain ⟨records'⟩ := reg'
  congr 1
  refine Array.ext hcap fun i hi hi' => ?_
  have hget := h ⟨i⟩
  unfold get? at hget
  simpa [hi, hi'] using hget

/-- Putting a record changes a tally by what the new record counts and the old one counted. -/
theorem Sets.tally (h : reg.Sets reg' id r) (hcap : reg'.capacity = reg.capacity)
    (hid : id.index < reg.capacity) (p : Component → Bool) :
    reg'.tally p + ((reg.get? id).any p).toNat = reg.tally p + (p r).toNat := by
  have hreg' : reg' = ⟨reg.records.setIfInBounds id.index (some r)⟩ := by
    refine ext_get? (by simpa [capacity] using hcap) fun other => ?_
    rw [h other]
    simp only [get?, Array.getElem?_setIfInBounds]
    by_cases he : id = other
    · subst he
      simp [show id.index < reg.records.size from hid]
    · have hne : id.index ≠ other.index := fun e => he (by cases id; cases other; simp_all)
      simp [he, hne]
  have hold : reg.get? id = reg.records.toList[id.index] := by
    unfold get?
    rw [Array.getElem?_eq_getElem hid]
    rfl
  rw [hreg', hold]
  unfold Registry.tally
  rw [← Array.countP_toList, ← Array.countP_toList, Array.toList_setIfInBounds]
  exact countP_set_add hid (some r)

/-- A change that does not touch the property keeps the tally. -/
theorem tally_modify {f : Component → Component} (hp : ∀ r, reg.get? id = some r → p (f r) = p r) :
    (reg.modify id f).tally p = reg.tally p := by
  cases hr : reg.get? id with
  | none =>
    refine congrArg (tally · p) (ext_get? (capacity_modify ..) fun other => ?_)
    rw [get?_modify]
    by_cases he : id = other
    · subst he
      rw [if_pos rfl, hr]
      rfl
    · rw [if_neg he]
  | some r =>
    have htally := (sets_modify hr f).tally (capacity_modify ..) (lt_of_get? hr) p
    rw [hr, hp r hr] at htally
    exact Nat.add_right_cancel htally

/-- A new component is counted if it has the property. -/
theorem tally_create (h : reg.create id r = .ok reg') (p : Component → Bool) :
    reg'.tally p = reg.tally p + (p r).toNat := by
  obtain ⟨hfree, hid, hcap, hget⟩ := create_ok h
  have htally := Sets.tally (r := r) hget hcap hid p
  rwa [hfree] at htally

/-! ## Bodies that have begun -/

/-- How many bodies have begun. -/
def begunCount (reg : Registry) : Nat := reg.tally fun r => r.stage != .created

/-- How many bodies can begin yet. -/
def unbegun (reg : Registry) : Nat := reg.capacity - reg.begunCount

/-- A component that is put in the place of one that had not begun, and has begun itself. -/
theorem Sets.begunCount (h : reg.Sets reg' id r) (hcap : reg'.capacity = reg.capacity)
    (hid : id.index < reg.capacity) (hold : ∀ r', reg.get? id = some r' → r'.stage = .created)
    (hr : r.stage ≠ .created) : reg'.begunCount = reg.begunCount + 1 := by
  have htally := h.tally hcap hid fun r => r.stage != .created
  have hnone : (reg.get? id).any (fun r => r.stage != .created) = false := by
    cases hr' : reg.get? id with
    | none => rfl
    | some r' => simp [hold r' hr']
  have hnew : (r.stage != .created) = true := by simpa using hr
  rw [hnone, hnew] at htally
  exact htally

end Registry

/-! ## How the count of begun bodies moves along -/

theorem Step.capacity_eq {m m' : Moment} (h : Step π m m') :
    m'.state.registry.capacity = m.state.registry.capacity := by
  cases h with
  | read | write | leave | assign | note => rfl
  | keep | input | account | finish | release | count | trigger => exact Registry.capacity_modify ..
  | create ht hr => exact (Registry.create_ok hr).2.2.1
  | createRun ht hr => exact (Registry.capacity_modify ..).trans (Registry.create_ok hr).2.2.1
  | inputRun | accountRun =>
    exact (Registry.capacity_modify ..).trans (Registry.capacity_modify ..)

theorem Path.capacity_eq {m m' : Moment} (h : Path π m m') :
    m'.state.registry.capacity = m.state.registry.capacity :=
  h.keeps (I := fun m' => m'.state.registry.capacity = m.state.registry.capacity)
    (fun _ _ hi hs => hs.capacity_eq.trans hi) rfl

namespace Registry

variable {reg reg' : Registry}

/-- The records in the order of their handles. -/
theorem tally_eq_countP_range (reg : Registry) (p : Component → Bool) : reg.tally p
    = (List.range reg.capacity).countP fun i => (reg.get? ⟨i⟩).any p := by
  have hrecords : reg.records.toList = (List.range reg.capacity).map fun i => reg.get? ⟨i⟩ := by
    refine List.ext_getElem (by simp [capacity]) fun i hi _ => ?_
    have hi : i < reg.records.size := hi
    simp [get?, hi]
  unfold tally
  rw [← Array.countP_toList, hrecords, List.countP_map]
  rfl

/-- A body that has begun has begun for good. -/
theorem Ages.begunCount_le (h : reg.Ages reg') (hcap : reg'.capacity = reg.capacity) :
    reg.begunCount ≤ reg'.begunCount := by
  unfold begunCount
  rw [tally_eq_countP_range, tally_eq_countP_range, hcap]
  refine List.countP_mono_left fun i _ hi => ?_
  obtain ⟨r, hr, hs⟩ := (Option.any_eq_true _ _).mp hi
  obtain ⟨r', hr', ha⟩ := h _ r hr
  rw [hr']
  simpa using ha.begun (by simpa using hs)

end Registry

/-- Along a path, bodies that have begun are never fewer. -/
theorem Path.begunCount_le {m m' : Moment} (h : Path π m m') :
    m.state.registry.begunCount ≤ m'.state.registry.begunCount :=
  h.ages.begunCount_le h.capacity_eq

/-- And components that have not begun are never more. -/
theorem Path.unbegun_le {m m' : Moment} (h : Path π m m') :
    m'.state.registry.unbegun ≤ m.state.registry.unbegun := by
  have hle := h.begunCount_le
  have hcap := h.capacity_eq
  unfold Registry.unbegun
  omega

/-! ## What a step does to the stack -/

/-- The components whose bodies were started, in order. -/
def Trace.starts (t : Trace) : List Handle :=
  t.toList.filterMap fun
    | .triggered id => some id
    | _ => none

/-- One trace shows the starts of another and some more. -/
def Trace.Starts (t t' : Trace) (ids : List Handle) : Prop :=
  t.enabled = true → t'.enabled = true ∧ t'.starts = t.starts ++ ids

namespace Trace

theorem Starts.refl (t : Trace) : t.Starts t [] := fun h => ⟨h, (List.append_nil _).symm⟩

theorem Starts.trans {t t' t'' : Trace} {ids ids' : List Handle} (h : t.Starts t' ids)
    (h' : t'.Starts t'' ids') : t.Starts t'' (ids ++ ids') := fun hen => by
  obtain ⟨hen', hlist⟩ := h hen
  obtain ⟨hen'', hlist'⟩ := h' hen'
  exact ⟨hen'', by rw [hlist', hlist, List.append_assoc]⟩

theorem starts_triggered (t : Trace) (id : Handle) : t.Starts (t.record (.triggered id)) [id] := by
  intro h
  unfold starts
  rw [toList_record, if_pos h, enabled_record, List.filterMap_append]
  exact ⟨h, rfl⟩

/-- Another event starts no body. -/
theorem starts_record (t : Trace) {e : Event} (he : ∀ id, e ≠ .triggered id) :
    t.Starts (t.record e) [] := by
  intro h
  unfold starts
  rw [toList_record, if_pos h, enabled_record, List.filterMap_append]
  cases e with
  | triggered id => exact absurd rfl (he id)
  | _ => exact ⟨h, rfl⟩

end Trace

/-- What a step does to the stack: it leaves it, takes the innermost body off it, or begins the body
    of a component that had not begun.  Nothing else begins. -/
inductive Step.OnStack (m m' : Moment) : Prop
  | same (h : m'.stack = m.stack)
      (hstarted : ∀ id, m'.state.Started id → m.state.Started id)
      (htrace : m.state.trace.Starts m'.state.trace [])
  | pop (id : Handle) (h : m.stack = id :: m'.stack)
      (hstarted : ∀ other, m'.state.Started other → m.state.Started other ∨ other = id)
      (htrace : m.state.trace.Starts m'.state.trace [])
  | push (id : Handle) (h : m'.stack = id :: m.stack) (hnew : ¬ m.state.Started id)
      (hrun : m'.state.Running id)
      (hstarted : ∀ other, m'.state.Started other → m.state.Started other ∨ other = id)
      (hcount : m'.state.registry.begunCount = m.state.registry.begunCount + 1)
      (htrace : m.state.trace.Starts m'.state.trace [id])

namespace Step.OnStack

variable {s : List Handle} {c c' : Computation} {id : Handle} {r : Component}

/-- Where one record is put, no other component begins. -/
theorem started_of_sets (hsets : c.registry.Sets c'.registry id r) {other : Handle}
    (h : c'.Started other) : c.Started other ∨ other = id := by
  obtain ⟨r', hr', hs'⟩ := h
  rw [hsets other] at hr'
  by_cases he : id = other
  · exact .inr he.symm
  · rw [if_neg he] at hr'
    exact .inl ⟨r', hr', hs'⟩

/-- What leaves the records alone. -/
theorem frame (hreg : c'.registry = c.registry) (htrace : c.trace.Starts c'.trace []) :
    Step.OnStack ⟨s, c⟩ ⟨s, c'⟩ := by
  refine .same rfl (fun other h => ?_) htrace
  have h : ∃ r, c'.registry.get? other = some r ∧ r.stage ≠ .created := h
  rwa [hreg] at h

/-- A record that is put in the place of another and does not begin. -/
theorem stay (hsets : c.registry.Sets c'.registry id r)
    (hstage : r.stage ≠ .created → c.Started id) (htrace : c.trace.Starts c'.trace []) :
    Step.OnStack ⟨s, c⟩ ⟨s, c'⟩ := by
  refine .same rfl (fun other h => ?_) htrace
  rcases started_of_sets hsets h with h' | rfl
  · exact h'
  · obtain ⟨r', hr', hs'⟩ := h
    have hr' : c'.registry.get? other = some r' := hr'
    rw [hsets.self] at hr'
    cases hr'
    exact hstage hs'

/-- A body begins: one record more has begun, and the stack and the starts go along. -/
theorem begin (hsets : c.registry.Sets c'.registry id r)
    (hcap : c'.registry.capacity = c.registry.capacity) (hid : id.index < c.registry.capacity)
    (hold : ∀ r', c.registry.get? id = some r' → r'.stage = .created) (hrun : r.stage = .running)
    (htrace : c.trace.Starts c'.trace [id]) : Step.OnStack ⟨s, c⟩ ⟨id :: s, c'⟩ := by
  refine .push id rfl ?_ ?_ (fun _ => started_of_sets hsets)
    (hsets.begunCount hcap hid hold (by simp [hrun])) htrace
  · rintro ⟨r', hr', hs'⟩
    exact hs' (hold r' hr')
  · exact (Computation.running_iff hsets.self).mpr hrun

end Step.OnStack

/-- **A body goes onto the stack exactly when its component leaves the first stage.** -/
theorem Step.onStack {m m' : Moment} (h : Step π m m') : Step.OnStack m m' := by
  have hcap := h.capacity_eq
  cases h with
  | read | write | assign => exact .frame rfl (Trace.starts_record _ (by simp))
  | note => exact .frame rfl (.refl _)
  | keep hr => exact .stay (Registry.sets_modify hr _) (fun h => ⟨_, hr, h⟩) (.refl _)
  | create ht hr =>
    exact .stay (Registry.sets_create hr) (fun h => absurd rfl h)
      (Trace.starts_record _ (by simp))
  | input hq hi hw hr hp hn =>
    exact .stay (Registry.sets_modify hr _) (fun h => ⟨_, hr, h⟩)
      ((Trace.starts_record _ (by simp)).trans (Trace.starts_record _ (by simp)))
  | account hq hr =>
    exact .stay (Registry.sets_modify hr _) (fun h => ⟨_, hr, h⟩)
      (Trace.starts_record _ (by simp))
  | release hr hf =>
    exact .stay (Registry.sets_modify hr _) (fun _ => ⟨_, hr, by simp [hf]⟩)
      (Trace.starts_record _ (by simp))
  | count hq hr => exact .stay (Registry.sets_modify hr _) (fun h => ⟨_, hr, h⟩) (.refl _)
  | leave => exact .pop _ rfl (fun _ h => .inl h) (.refl _)
  | @finish s c id =>
    refine .pop id rfl (fun other h => ?_) (Trace.starts_record _ (by simp))
    cases hr : c.registry.get? id with
    | some r => exact OnStack.started_of_sets (Registry.sets_modify hr _) h
    | none =>
      -- Without a record there is nothing to change.
      obtain ⟨r, hr', hs⟩ := h
      have hr' : (c.registry.modify id _).get? other = some r := hr'
      rw [Registry.get?_modify] at hr'
      by_cases he : id = other
      · exact .inr he.symm
      · rw [if_neg he] at hr'
        exact .inl ⟨r, hr', hs⟩
  | createRun ht hr =>
    have hsets := Registry.sets_create hr
    obtain ⟨hfree, hid, -, -⟩ := Registry.create_ok hr
    refine .begin (hsets.trans (Registry.sets_modify hsets.self _)) hcap hid ?_ rfl
      ((Trace.starts_record _ (by simp)).trans (Trace.starts_triggered _ _))
    intro r' hr'
    rw [hfree] at hr'
    cases hr'
  | @inputRun s c id l i v r written hq hi hw hr hp =>
    obtain ⟨r₀, -, hr₀, -, -, hs, -⟩ := of_inputSignal hi
    have hsets := Registry.sets_modify hr fun r => { r with pending := 0 }
    refine .begin (hsets.trans (Registry.sets_modify hsets.self _)) hcap (Registry.lt_of_get? hr)
      ?_ rfl ((Trace.starts_record _ (by simp)).trans ((Trace.starts_record _ (by simp)).trans
        (Trace.starts_triggered _ _)))
    intro r' hr'
    rw [hr₀] at hr'
    cases hr'
    exact hs
  | @accountRun s c i r body hq hr ht hs hp hb hi =>
    obtain ⟨r₀, hr₀, hs₀, -, -⟩ := Action.of_startable hb
    have hsets := Registry.sets_modify hr fun r => { r with pending := 0 }
    have hself : some { r with pending := 0 } = some r₀ := hsets.self.symm.trans hr₀
    refine .begin (hsets.trans (Registry.sets_modify hsets.self _)) hcap (Registry.lt_of_get? hr)
      ?_ rfl ((Trace.starts_record _ (by simp)).trans (Trace.starts_triggered _ _))
    intro r' hr'
    rw [hr] at hr'
    cases hr'
    cases hself
    exact hs₀
  | @trigger s c id body hb =>
    obtain ⟨r, hr, hs, -, -⟩ := Action.of_startable hb
    refine .begin (Registry.sets_modify hr _) hcap (Registry.lt_of_get? hr) ?_ rfl
      (Trace.starts_triggered _ _)
    intro r' hr'
    rw [hr] at hr'
    cases hr'
    exact hs

end CircuitWitness
