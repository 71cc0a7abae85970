import CircuitWitness.Proofs.Calculation
import CircuitWitness.Proofs.InputBlock
import CircuitWitness.Proofs.Procedure
import CircuitWitness.Proofs.Supply
/-
  Feeding the main inputs: by name, by address, or in order.

  A calculation by name assigns element after element through the checks of the assignment; a
  caller may do the same by address, in an order of its own; and values in order are written
  straight into the input block, with the number of inputs to come set to zero by hand.  All three
  end in the same computation.

  What they have in common is a row of values, one for each main input.  The elements of the row
  stand for the main inputs, each for one of its own (`Addressed.places_perm`): declared inputs do
  not overlap, and leave none out.  So elements that are a rearrangement of the row are taken
  without a fault (`Addressed.fits`, `Taken.assignedAll`), and fill the store with the row
  (`Addressed.get?_fed`), whatever their order was.  Without a trace nothing but the store and the
  number of inputs to come changes on the way; hence each way reaches the one computation `loaded`,
  and runs the main component there.

  The number of inputs to come is a word of 32 bits, and so is the number that the main component
  waits for.  Both are zero at once when `2 ^ 32` main inputs are declared; then the ways part
  (`Uncounted`).
-/

namespace CircuitWitness

open CircuitWitness.Action

/-! ## A row of values, input by input -/

/-- The values of an input, in a row of values for all main inputs. -/
def InputSignal.slice (s : InputSignal) (values : List Scalar) : List Scalar :=
  (values.drop s.offset).take s.size

namespace Circuit

/-- The elements that stand for a row of values. -/
def elementsOf (circuit : Circuit) (values : List Scalar) : List Element :=
  circuit.inputs.signals.flatMap fun s => elementsFrom s.name 0 (s.slice values)

/-- The assignment names the declared inputs, in any order, and gives each its values of the
    row. -/
def Gives (circuit : Circuit) (values : List Scalar) (inputs : InputValues) : Prop :=
  inputs.entries.Perm (circuit.inputs.signals.map fun s => (s.name, s.slice values))

/-- A circuit whose main inputs all belong to declared inputs, and these have hashes of their
    own. -/
structure Addressed (circuit : Circuit) : Prop where
  feedable : circuit.Feedable
  hashes : (circuit.inputs.signals.map InputSignal.hash).Nodup
  covered : ∀ i < circuit.mainInputCount,
    ∃ s ∈ circuit.inputs.signals, s.offset ≤ i ∧ i < s.stop

theorem Addressed.of_accept {d : CircuitDescription} {circuit : Circuit}
    {signals : List InputSignal} (hsignals : InputMap.ofList signals = .ok d.inputs)
    (hd : d.accept = .ok circuit) (hne : d.inputs.isEmpty = false)
    (hcounts : circuit.mainInputCount < 2 ^ 32)
    (hinside : circuit.mainInputStart + circuit.mainInputCount ≤ circuit.totalSignals) :
    circuit.Addressed := by
  obtain ⟨heq, -, hcheck⟩ := CircuitDescription.of_accept hd
  refine ⟨.of_accept hd hcounts hinside, ?_, fun i hi => ?_⟩
  · rw [heq]
    exact (InputMap.of_ofList hsignals).2
  · rw [heq]
    exact CircuitDescription.covered_of_check hcheck hne hi

variable {circuit : Circuit} {values : List Scalar} {inputs : InputValues} {s : InputSignal}
  {x : Element}

theorem Gives.elements_perm (h : circuit.Gives values inputs) :
    inputs.elements.Perm (circuit.elementsOf values) := by
  have hperm := h.flatMap_right fun entry => elementsFrom entry.1 0 entry.2
  rwa [List.flatMap_map] at hperm

/-- An element of an input is one of its values, under its index. -/
theorem of_mem_elementsFrom {name : String} {index : Nat} {vs : List Scalar}
    (h : x ∈ elementsFrom name index vs) :
    x.name = name ∧ ∃ j, x.index = index + j ∧ vs[j]? = some x.value := by
  induction vs generalizing index with
  | nil => cases h
  | cons v rest ih =>
    rcases List.mem_cons.mp h with rfl | hrest
    · exact ⟨rfl, 0, rfl, rfl⟩
    · obtain ⟨hname, j, hindex, hvalue⟩ := ih hrest
      exact ⟨hname, j + 1, by omega, hvalue⟩

/-- The elements of an input stand for signals that follow one another. -/
theorem map_place_elementsFrom (hs : circuit.inputs.findName? s.name = some s) (index : Nat)
    (vs : List Scalar) : (elementsFrom s.name index vs).map circuit.place
      = List.range' (circuit.slot s index) vs.length := by
  induction vs generalizing index with
  | nil => rfl
  | cons v rest ih =>
    have hplace : circuit.place ⟨s.name, index, v⟩ = circuit.slot s index := place_eq hs
    show circuit.place _ :: (elementsFrom s.name (index + 1) rest).map circuit.place = _
    rw [hplace, ih]
    rfl

namespace Addressed

theorem findName?_of_mem (h : circuit.Addressed) (hs : s ∈ circuit.inputs.signals) :
    circuit.inputs.findName? s.name = some s := InputMap.find?_of_mem h.hashes hs

theorem length_slice (h : circuit.Addressed) (hlen : values.length = circuit.mainInputCount)
    (hs : s ∈ circuit.inputs.signals) : (s.slice values).length = s.size := by
  have hstop := h.feedable.inputs.within s hs
  unfold InputSignal.stop at hstop
  unfold InputSignal.slice
  rw [List.length_take, List.length_drop]
  omega

/-- An element of the row is one of a declared input, and holds the value of its place. -/
theorem of_mem_elementsOf (h : circuit.Addressed) (hlen : values.length = circuit.mainInputCount)
    (hx : x ∈ circuit.elementsOf values) : circuit.Declares x ∧
      values[circuit.place x - circuit.mainInputStart]? = some x.value := by
  obtain ⟨s, hs, hmem⟩ := List.mem_flatMap.mp hx
  obtain ⟨hname, j, hindex, hvalue⟩ := of_mem_elementsFrom hmem
  have hfind : circuit.inputs.findName? x.name = some s := hname ▸ h.findName?_of_mem hs
  have hj : j < s.size := by
    rw [← h.length_slice hlen hs]
    exact (List.getElem?_eq_some_iff.mp hvalue).1
  rw [Nat.zero_add] at hindex
  refine ⟨⟨s, hfind, by omega⟩, ?_⟩
  have hplace : circuit.place x - circuit.mainInputStart = s.offset + j := by
    rw [place_eq hfind, hindex]
    unfold slot
    omega
  unfold InputSignal.slice at hvalue
  rw [List.getElem?_take_of_lt hj, List.getElem?_drop] at hvalue
  rw [hplace, hvalue]

/-- **The elements of the row stand for the main inputs, each for one of its own.** -/
theorem places_perm (h : circuit.Addressed) (hlen : values.length = circuit.mainInputCount) :
    ((circuit.elementsOf values).map circuit.place).Perm
      (List.range' circuit.mainInputStart circuit.mainInputCount) := by
  have hplaces : (circuit.elementsOf values).map circuit.place
      = circuit.inputs.signals.flatMap fun s => List.range' (circuit.slot s 0) s.size := by
    unfold elementsOf
    rw [List.map_flatMap]
    refine List.flatMap_congr fun s hs => ?_
    rw [map_place_elementsFrom (h.findName?_of_mem hs), h.length_slice hlen hs]
  rw [hplaces]
  exact h.feedable.inputs.slots_perm h.covered

end Addressed

/-! ## Signals that were fed -/

/-- What a signal holds when the main inputs hold a row of values and nothing else was written but
    the constant one. -/
def fedSignal (circuit : Circuit) (values : List Scalar) (i : Nat) : Option Scalar :=
  if i = 0 then some 1
  else if circuit.mainInputStart ≤ i then values[i - circuit.mainInputStart]? else none

variable {config : Config} {c : Computation} {taken l : List Element} {enter : Enter}

/-- Elements that stand for the main inputs, each for one of its own, have filled the store with
    any row that has their values. -/
theorem Feedable.get?_row (hf : circuit.Feedable)
    (hplaces : (taken.map circuit.place).Perm
      (List.range' circuit.mainInputStart circuit.mainInputCount))
    (hlen : values.length = circuit.mainInputCount)
    (hrow : ∀ x ∈ taken, values[circuit.place x - circuit.mainInputStart]? = some x.value)
    {store : SignalStore} (hone : store.read? 0 = some 1)
    (hvalues : ∀ x ∈ taken, store.read? (circuit.place x) = some x.value)
    (hwritten : ∀ i, store.isWritten? i = some true ↔
      i = 0 ∨ i ∈ List.range' circuit.mainInputStart circuit.mainInputCount) (i : Nat) :
    store.get? i = circuit.fedSignal values i := by
  have hstart : circuit.mainInputStart ≠ 0 := by
    have hpos := hf.start
    unfold mainInputStart
    omega
  unfold fedSignal
  by_cases hzero : i = 0
  · subst hzero
    rw [if_pos rfl]
    exact SignalStore.get?_eq_some.mpr ⟨(hwritten 0).mpr (.inl rfl), hone⟩
  rw [if_neg hzero]
  by_cases hin : i ∈ List.range' circuit.mainInputStart circuit.mainInputCount
  · obtain ⟨x, hx, rfl⟩ := List.mem_map.mp (hplaces.mem_iff.mpr hin)
    rw [if_pos (List.mem_range'_1.mp hin).1, hrow x hx]
    exact SignalStore.get?_eq_some.mpr ⟨(hwritten _).mpr (.inr hin), hvalues x hx⟩
  · have hnone : store.get? i = none := by
      refine SignalStore.get?_eq_none.mpr fun hw => ?_
      rcases (hwritten i).mp hw with h0 | hmem
      · exact hzero h0
      · exact hin hmem
    rw [List.mem_range'_1] at hin
    rw [hnone]
    split
    · exact (List.getElem?_eq_none (by omega)).symm
    · rfl

/-- Elements with the values of the row have filled the store with the row. -/
theorem Addressed.get?_fed (h : circuit.Addressed) (hlen : values.length = circuit.mainInputCount)
    (htaken : taken.Perm (circuit.elementsOf values)) {store : SignalStore}
    (hone : store.read? 0 = some 1)
    (hvalues : ∀ x ∈ taken, store.read? (circuit.place x) = some x.value)
    (hwritten : ∀ i, store.isWritten? i = some true ↔
      i = 0 ∨ i ∈ List.range' circuit.mainInputStart circuit.mainInputCount) (i : Nat) :
    store.get? i = circuit.fedSignal values i :=
  h.feedable.get?_row ((htaken.map circuit.place).trans (h.places_perm hlen)) hlen
    (fun _ hx => (h.of_mem_elementsOf hlen (htaken.mem_iff.mp hx)).2) hone hvalues hwritten i

/-! ## Elements in any order -/

/-- An element is without fault if it is declared and new and there is room for it. -/
theorem offence?_eq_none (hx : circuit.Declares x) (hroom : taken.length ≠ circuit.mainInputCount)
    (hnew : x.address ∉ taken.map Element.address) : circuit.offence? taken x = none := by
  obtain ⟨s, hs, hindex⟩ := hx
  unfold offence?
  rw [hs]
  show (if _ then _ else _) = _
  rw [if_neg hroom, if_neg (by omega), if_neg hnew]

/-- Elements that can be taken one after another, on top of those taken before. -/
structure Fits (circuit : Circuit) (taken l : List Element) : Prop where
  declares : ∀ x ∈ l, circuit.Declares x
  once : ((taken ++ l).map Element.address).Nodup
  room : (taken ++ l).length ≤ circuit.mainInputCount

end Circuit

/-- Some main inputs are assigned. -/
def Computation.assignedAll (c : Computation) (l : List Element) : Computation :=
  l.foldl (fun c x => c.assigned (c.circuit.place x) x.value) c

namespace Circuit

variable {circuit : Circuit} {config : Config} {c : Computation} {taken l : List Element}
  {x : Element} {enter : Enter}

theorem Fits.head (h : circuit.Fits taken (x :: l)) : circuit.offence? taken x = none := by
  obtain ⟨hdecl, honce, hroom⟩ := h
  rw [List.map_append, List.nodup_append] at honce
  rw [List.length_append, List.length_cons] at hroom
  refine offence?_eq_none (hdecl x (List.mem_cons_self ..)) (by omega) fun hmem => ?_
  exact honce.2.2 _ hmem _ (List.mem_cons_self ..) rfl

theorem Fits.tail (h : circuit.Fits taken (x :: l)) : circuit.Fits (taken ++ [x]) l := by
  obtain ⟨hdecl, honce, hroom⟩ := h
  refine ⟨fun y hy => hdecl y (List.mem_cons_of_mem x hy), ?_, ?_⟩
  · rwa [List.append_assoc]
  · rwa [List.append_assoc]

/-- Elements that fit are taken. -/
theorem Taken.assignedAll (h : circuit.Taken config taken c) (hf : circuit.Feedable)
    (hfits : circuit.Fits taken l) : circuit.Taken config (taken ++ l) (c.assignedAll l) := by
  induction l generalizing taken c with
  | nil => rwa [List.append_nil]
  | cons x l ih =>
    have hx := (h.take hf hfits.head).1
    rw [show taken ++ x :: l = taken ++ [x] ++ l by rw [List.append_assoc]; rfl]
    rw [← h.circuit_eq] at hx
    exact ih (h.circuit_eq ▸ hx) hfits.tail

/-- A way to assign an element, which for declared inputs is as good as assigning it by name. -/
def Assigns (circuit : Circuit) (enter : Enter) (assign : Element → Action Unit) : Prop :=
  ∀ x c, c.circuit = circuit → circuit.Declares x →
    assign x c = assignByName enter x.name x.index x.value c

theorem assigns_byName (circuit : Circuit) (enter : Enter) : circuit.Assigns enter fun x =>
    assignByName enter x.name x.index x.value :=
  fun _ _ _ _ => rfl

variable {assign : Element → Action Unit}

/-- Elements that leave a main input to come are assigned, and nothing else happens. -/
theorem Taken.assign_front (h : circuit.Taken config taken c) (hf : circuit.Feedable)
    (hassign : circuit.Assigns enter assign) (hfits : circuit.Fits taken l)
    (hless : (taken ++ l).length < circuit.mainInputCount) :
    l.forM assign c = .ok () (c.assignedAll l) := by
  induction l generalizing taken c with
  | nil => rfl
  | cons x l ih =>
    obtain ⟨htaken, htake⟩ := h.take hf hfits.head
    rw [show taken ++ x :: l = taken ++ [x] ++ l by rw [List.append_assoc]; rfl] at hless
    have hx : assign x c = .ok () (c.assigned (circuit.place x) x.value) := by
      rw [hassign x c h.circuit_eq (hfits.declares x (List.mem_cons_self ..)), htake enter,
        if_neg ?_]
      rw [List.length_append] at hless
      omega
    refine (bind_ok hx).trans ((ih htaken hfits.tail hless).trans ?_)
    rw [← h.circuit_eq]
    rfl

/-- The last main input runs the main component. -/
theorem Taken.assign_all (h : circuit.Taken config taken c) (hf : circuit.Feedable)
    (hassign : circuit.Assigns enter assign) (hfits : circuit.Fits taken l) (hne : l ≠ [])
    (hfull : (taken ++ l).length = circuit.mainInputCount) :
    l.forM assign c = runMain enter (c.assignedAll l) := by
  induction l generalizing taken c with
  | nil => exact absurd rfl hne
  | cons x l ih =>
    obtain ⟨htaken, htake⟩ := h.take hf hfits.head
    rw [show taken ++ x :: l = taken ++ [x] ++ l by rw [List.append_assoc]; rfl] at hfull
    have hx := hassign x c h.circuit_eq (hfits.declares x (List.mem_cons_self ..))
    rw [htake enter] at hx
    have hsame : c.assignedAll (x :: l)
        = (c.assigned (circuit.place x) x.value).assignedAll l := by
      rw [← h.circuit_eq]
      rfl
    rw [hsame]
    by_cases hl : l = []
    · subst hl
      rw [List.append_nil] at hfull
      rw [if_pos hfull] at hx
      exact bind_return.trans hx
    · have hpos := List.length_pos_iff.mpr hl
      rw [if_neg (by rw [List.length_append] at hfull; omega)] at hx
      exact (bind_ok hx).trans (ih htaken hfits.tail hl hfull)

/-! ## The row is loaded -/

variable {values : List Scalar} {inputs : InputValues}

/-- The main inputs hold a row of values, none of them is to come, and nothing else has
    happened. -/
def loaded (circuit : Circuit) (config : Config) (values : List Scalar) : Computation :=
  let c := Computation.start circuit config
  { c with store := c.store.writeFrom circuit.mainInputStart values, pendingInputs := 0 }

/-- The elements of a row fit, in any order. -/
theorem Addressed.fits (h : circuit.Addressed) (hlen : values.length = circuit.mainInputCount)
    (hl : l.Perm (circuit.elementsOf values)) :
    circuit.Fits [] l ∧ l.length = circuit.mainInputCount := by
  have hplaces := (hl.map circuit.place).trans (h.places_perm hlen)
  have hlength : l.length = circuit.mainInputCount := by
    rw [← List.length_map (f := circuit.place), hplaces.length_eq, List.length_range']
  refine ⟨⟨fun x hx => (h.of_mem_elementsOf hlen (hl.mem_iff.mp hx)).1, ?_,
    Nat.le_of_eq hlength⟩, hlength⟩
  -- Elements of one address would stand for one signal.
  have hnodup : (l.map circuit.place).Nodup := hplaces.nodup_iff.mpr List.nodup_range'
  exact List.pairwise_map.mpr ((List.pairwise_map.mp hnodup).imp fun hne he =>
    hne (place_congr he))

theorem Fits.left {front back : List Element} (h : circuit.Fits taken (front ++ back)) :
    circuit.Fits taken front := by
  obtain ⟨hdecl, honce, hroom⟩ := h
  rw [← List.append_assoc] at honce hroom
  rw [List.map_append] at honce
  rw [List.length_append] at hroom
  exact ⟨fun x hx => hdecl x (List.mem_append_left _ hx), (List.nodup_append.mp honce).1,
    by omega⟩

/-- Without a trace, assignments leave no mark but in the store and in the number of inputs to
    come. -/
theorem assignedAll_untraced (htrace : c.trace.enabled = false) :
    (c.assignedAll l).trace = c.trace ∧ (c.assignedAll l).notes = c.notes := by
  induction l generalizing c with
  | nil => exact ⟨rfl, rfl⟩
  | cons x l ih =>
    have hx : (c.assigned (c.circuit.place x) x.value).trace = c.trace := Trace.record_off htrace _
    have hrest := ih (c := c.assigned (c.circuit.place x) x.value) (hx.symm ▸ htrace)
    exact ⟨hrest.1.trans hx, hrest.2⟩

theorem untraced_start (circuit : Circuit) (htrace : config.recordTrace = false) :
    (Computation.start circuit config).trace = Trace.empty false := by
  show (if _ then Trace.empty config.recordTrace else (Trace.empty config.recordTrace).record _) = _
  rw [htrace]
  split <;> rfl

theorem Addressed.get?_loaded (h : circuit.Addressed)
    (hlen : values.length = circuit.mainInputCount) (i : Nat) :
    (circuit.loaded config values).store.get? i = circuit.fedSignal values i := by
  have hstart := taken_start h.feedable config
  have hinside := h.feedable.inside
  have hpos := h.feedable.start
  have hsize := hstart.size
  show ((Computation.start circuit config).store.writeFrom _ _).get? i = _
  rw [SignalStore.get?_writeFrom (by omega)]
  have hzero : (Computation.start circuit config).store.get? 0 = some 1 :=
    SignalStore.get?_eq_some.mpr ⟨(hstart.written 0).mpr (.inl rfl), hstart.one⟩
  have hne : ∀ i, i ≠ 0 → (Computation.start circuit config).store.get? i = none := fun i hi =>
    SignalStore.get?_eq_none.mpr fun hw => by
      rcases (hstart.written i).mp hw with h0 | ⟨x, hx, -⟩
      · exact hi h0
      · cases hx
  unfold mainInputStart at hinside ⊢
  unfold fedSignal mainInputStart
  split
  · rename_i hin
    rw [if_neg (by omega), if_pos hin.1]
  · rename_i hout
    by_cases hi : i = 0
    · rw [hi, hzero, if_pos rfl]
    · rw [hne i hi, if_neg hi]
      split
      · exact (List.getElem?_eq_none (by omega)).symm
      · rfl

/-- **All orders load the same row**: without a trace, nothing tells how the elements came. -/
theorem Addressed.assignedAll_eq_loaded (h : circuit.Addressed)
    (hlen : values.length = circuit.mainInputCount) (hl : l.Perm (circuit.elementsOf values))
    (htrace : config.recordTrace = false) :
    (Computation.start circuit config).assignedAll l = circuit.loaded config values := by
  obtain ⟨hfits, hlength⟩ := h.fits hlen hl
  have htaken := (taken_start h.feedable config).assignedAll h.feedable hfits
  have hplaces := (hl.map circuit.place).trans (h.places_perm hlen)
  have hrow := untraced_start circuit htrace
  obtain ⟨htr, hnotes⟩ := assignedAll_untraced (l := l) (c := .start circuit config)
    (by rw [hrow]; rfl)
  have hpending := htaken.pendingInputs_eq
  rw [List.nil_append] at htaken hpending
  have hstore : ((Computation.start circuit config).assignedAll l).store
      = (circuit.loaded config values).store := by
    refine SignalStore.ext_get? ?_ fun i => ?_
    · rw [htaken.size]
      exact ((taken_start h.feedable config).size.symm.trans (SignalStore.size_writeFrom _).symm)
    · rw [h.get?_loaded hlen]
      refine h.get?_fed hlen hl htaken.one htaken.values (fun i => ?_) i
      rw [htaken.written i, ← hplaces.mem_iff, List.mem_map]
  have hzero : ((Computation.start circuit config).assignedAll l).pendingInputs = 0 := by omega
  generalize (Computation.start circuit config).assignedAll l = c at *
  obtain ⟨circuit', config', store, registry, trace, pending, active, notes⟩ := c
  obtain rfl : circuit' = circuit := htaken.circuit_eq
  obtain rfl : config' = config := htaken.config_eq
  obtain rfl : registry = Registry.empty circuit'.totalComponents := htaken.registry
  obtain rfl : active = none := htaken.active
  cases hstore
  cases hzero
  cases htr
  cases hnotes
  rfl

/-! ## The three ways -/

/-- Writing the values in order loads the row. -/
theorem setSignals_eq (values : List Scalar) {i : Nat} (htrace : c.trace.enabled = false)
    (hinside : i + values.length ≤ c.store.size) :
    setSignals i values c = .ok () { c with store := c.store.writeFrom i values } := by
  induction values generalizing i c with
  | nil => rfl
  | cons v rest ih =>
    rw [List.length_cons] at hinside
    obtain ⟨w, hw⟩ := SignalStore.isWritten?_of_lt (s := c.store) (i := i) (by omega)
    have hwrote : c.wrote i v = { c with store := c.store.write i v } := by
      unfold Computation.wrote Computation.recorded
      rw [Trace.record_off htrace]
    have hrest := ih (c := { c with store := c.store.write i v }) (i := i + 1) htrace
      (by rw [SignalStore.size_write]; omega)
    show (setSignal i v >>= fun _ => setSignals (i + 1) rest) c = _
    rw [bind_ok (setSignal_ok hw), hwrote]
    exact hrest

/-- The values in order run the main component over the loaded row. -/
theorem Addressed.feedOrdered_eq (h : circuit.Addressed)
    (hlen : values.length = circuit.mainInputCount) (htrace : config.recordTrace = false) :
    feedOrdered values (.start circuit config)
      = runMain (enterWithin circuit.totalComponents) (circuit.loaded config values) := by
  have hrow := untraced_start circuit htrace
  have hinside := h.feedable.inside
  have hsize := (taken_start h.feedable config).size
  have hset := setSignals_eq values (c := .start circuit config) (i := circuit.mainInputStart)
    (by rw [hrow]; rfl) (by omega)
  have hexpected : (Computation.start circuit config).circuit.mainInputCount = values.length :=
    hlen.symm
  unfold feedOrdered
  rw [get_bind, hexpected, if_neg (Nat.lt_irrefl _), if_neg (Nat.lt_irrefl _), get_bind]
  refine (bind_ok hset).trans ?_
  show runMain (enterWithin (Registry.empty circuit.totalComponents).capacity) _ = _
  rw [Registry.capacity_empty]
  rfl

/-- A calculation that is given a row by name runs the main component when all of it is
    assigned, in whatever order the names came. -/
theorem Addressed.feed_eq (h : circuit.Addressed) (hlen : values.length = circuit.mainInputCount)
    (hgives : circuit.Gives values inputs) (config : Config) :
    feed inputs (.start circuit config) = runMain (enterWithin circuit.totalComponents)
      ((Computation.start circuit config).assignedAll inputs.elements) := by
  have hstart := taken_start h.feedable config
  obtain ⟨hfits, hlength⟩ := h.fits hlen hgives.elements_perm
  have hassign : ∀ l : List Element, assignList (enterWithin circuit.totalComponents) l
      = l.forM fun x => assignByName (enterWithin circuit.totalComponents) x.name x.index x.value :=
    fun l => by
      induction l with
      | nil => rfl
      | cons x l ih =>
        show (_ >>= fun _ => assignList _ l) = _
        rw [ih]
        rfl
  by_cases hn : circuit.mainInputCount = 0
  · -- There is nothing to assign, so the main component is run after the empty assignment.
    have hnil : inputs.elements = [] := List.length_eq_zero_iff.mp (hlength.trans hn)
    have hrun : Request.run (.assignAll inputs) (.start circuit config)
        = .ok () (.start circuit config) := by
      rw [run_assignAll, hnil]
      rfl
    have hp := hstart.pendingInputs_eq
    rw [hn, Nat.zero_sub] at hp
    rw [feed_ok hrun, hstart.stage?, if_neg (by simp), if_neg (by simp [hp]), hnil]
    show runMain (enterWithin (Registry.empty circuit.totalComponents).capacity) _ = _
    rw [Registry.capacity_empty]
    rfl
  · have hne : inputs.elements ≠ [] := fun hnil => hn (by rw [← hlength, hnil]; rfl)
    have hall := hstart.assign_all h.feedable
      (assigns_byName circuit (enterWithin circuit.totalComponents)) hfits hne hlength
    have hassigned := hstart.assignedAll h.feedable hfits
    rw [← hassign, ← run_assignAll] at hall
    cases hr : runMain (enterWithin circuit.totalComponents)
        ((Computation.start circuit config).assignedAll inputs.elements) with
    | error f s => rw [hr] at hall; exact feed_error hall
    | ok u s =>
      -- The main component is there, so it is not run again.
      rw [hr] at hall
      rw [feed_ok hall, (hassigned.returns h.feedable hlength hr).2.2]
      rfl

/-- A circuit is fed by addresses as it is by names. -/
theorem assigns_byHash (circuit : Circuit) (enter : Enter) : circuit.Assigns enter fun x =>
    assignByHash enter (inputHash x.name) x.index x.value := by
  rintro x c rfl ⟨s, hs, -⟩
  exact (assignByName_known hs).symm

/-- **All ways of feeding the main inputs agree.**  A row of values gives the same witness, or the
    same failure, in order and by name, whatever the order of the names.  By address the row may
    come element by element in any order: all but the last are granted, and create no component;
    the last one ends in the same way, and in the same computation, whichever it is.  Counts are
    numbers of 32 bits, so there is to be one for the main inputs. -/
theorem feeds_agree {d : CircuitDescription} {signals : List InputSignal}
    (hsignals : InputMap.ofList signals = .ok d.inputs) (hd : d.accept = .ok circuit)
    (hne : d.inputs.isEmpty = false) (hcounts : circuit.mainInputCount < 2 ^ 32)
    (hinside : circuit.mainInputStart + circuit.mainInputCount ≤ circuit.totalSignals)
    (config : Config) (htrace : config.recordTrace = false) (values : List Scalar)
    (hlen : values.length = circuit.mainInputCount) :
    (∀ inputs, circuit.Gives values inputs →
      circuit.calculateOrdered config values = circuit.calculate config inputs) ∧
    (1 ≤ circuit.mainInputCount → ∃ last, ∀ order : List Element,
      order.Perm (circuit.elementsOf values) →
      (∀ front back, order = front ++ back → back ≠ [] → ∃ c,
        Procedure.run (front.forM fun x =>
          Procedure.assignByHash (inputHash x.name) x.index x.value) (.start circuit config)
          = .ok () c ∧ c.registry = Registry.empty circuit.totalComponents) ∧
      Procedure.run (order.forM fun x =>
        Procedure.assignByHash (inputHash x.name) x.index x.value) (.start circuit config)
        = last) := by
  have h := Addressed.of_accept hsignals hd hne hcounts hinside
  have hwrites : ∀ l : List Element, Procedure.run (l.forM fun x =>
      Procedure.assignByHash (inputHash x.name) x.index x.value) (.start circuit config)
        = (l.forM fun x => Action.assignByHash (enterWithin circuit.totalComponents)
            (inputHash x.name) x.index x.value) (.start circuit config) := by
    intro l
    show Procedure.runWith (enterWithin (Registry.empty circuit.totalComponents).capacity) _ _ = _
    have hrequest : (fun x : Element => Procedure.runWith (enterWithin circuit.totalComponents)
          (Procedure.assignByHash (inputHash x.name) x.index x.value))
        = fun x => Action.assignByHash (enterWithin circuit.totalComponents)
            (inputHash x.name) x.index x.value :=
      funext fun x => Procedure.runWith_request (.assignByHash (inputHash x.name) x.index x.value)
    rw [Registry.capacity_empty, Procedure.runWith_forM, hrequest]
  refine ⟨fun inputs hgives => ?_, fun hn => ⟨runMain (enterWithin circuit.totalComponents)
    (circuit.loaded config values), fun order horder => ⟨?_, ?_⟩⟩⟩
  · unfold calculateOrdered calculate calculation final
    rw [h.feedOrdered_eq hlen htrace, h.feed_eq hlen hgives,
      h.assignedAll_eq_loaded hlen hgives.elements_perm htrace]
  · rintro front back rfl hback
    obtain ⟨hfits, hlength⟩ := h.fits hlen horder
    have hpos := List.length_pos_iff.mpr hback
    rw [List.length_append] at hlength
    rw [hwrites]
    refine ⟨_, (taken_start h.feedable config).assign_front h.feedable (assigns_byHash _ _)
      hfits.left ?_, ?_⟩
    · show front.length < _
      omega
    · exact ((taken_start h.feedable config).assignedAll h.feedable hfits.left).registry
  · obtain ⟨hfits, hlength⟩ := h.fits hlen horder
    have hne : order ≠ [] := fun hnil => by rw [hnil] at hlength; simp at hlength; omega
    rw [hwrites, (taken_start h.feedable config).assign_all h.feedable (assigns_byHash _ _) hfits
      hne hlength, h.assignedAll_eq_loaded hlen horder htrace]

/-- The two inputs of the small circuit: in order, by name, and by address from the last to the
    first. -/
theorem feeds_agree_relay :
    relay.calculateOrdered {} [5, 7] = relay.calculate {} ⟨[("in", [5, 7])]⟩ ∧
    Procedure.run ([(⟨"in", 1, 7⟩ : Element), ⟨"in", 0, 5⟩].forM fun x =>
        Procedure.assignByHash (inputHash x.name) x.index x.value) (.start relay {})
      = Procedure.run ([(⟨"in", 0, 5⟩ : Element), ⟨"in", 1, 7⟩].forM fun x =>
        Procedure.assignByHash (inputHash x.name) x.index x.value) (.start relay {}) := by
  obtain ⟨hnamed, haddressed⟩ := feeds_agree
    (show InputMap.ofList [⟨"in", 0, 2⟩] = .ok _ from rfl) accept_relay rfl
    (by decide) (by decide) {} rfl [5, 7] rfl
  obtain ⟨last, hlast⟩ := haddressed (by decide)
  exact ⟨hnamed _ (.refl _), (hlast [⟨"in", 1, 7⟩, ⟨"in", 0, 5⟩] (.swap _ _ _)).2.trans
    (hlast [⟨"in", 0, 5⟩, ⟨"in", 1, 7⟩] (.refl _)).2.symm⟩

/-! ### More main inputs than a word counts -/

/-- A circuit with main inputs, but so many of them that their count, a number of 32 bits, is
    zero again. -/
structure Uncounted (circuit : Circuit) : Prop where
  main : circuit.templates.shape? circuit.mainTemplate = some circuit.mainShape
  components : circuit.totalComponents ≠ 0
  inputs : circuit.mainShape.inputs ≠ 0
  zero : circuit.mainShape.inputCounter = 0

namespace Uncounted

variable (h : circuit.Uncounted)
include h

/-- Not even the first assignment is granted. -/
theorem assignByHash_eq (enter : Enter) (hash : UInt64) (index : Nat) (v : Scalar) :
    assignByHash enter hash index v (.start circuit config)
      = .error (.refused .allInputsAssigned) (.start circuit config) :=
  assignByHash_refused (if_pos h.zero)

/-- So a calculation by name ends with the first element. -/
theorem calculate_eq {s : InputSignal} {x : Element} {rest : List Element}
    (helements : inputs.elements = x :: rest) (hs : circuit.inputs.findName? x.name = some s) :
    circuit.calculate config inputs = .error (.refused .allInputsAssigned) := by
  have hfirst : assignByName (enterWithin circuit.totalComponents) x.name x.index x.value
      (.start circuit config) = .error (.refused .allInputsAssigned) (.start circuit config) :=
    (assignByName_known hs).trans (h.assignByHash_eq ..)
  have hrun : Request.run (.assignAll inputs) (.start circuit config) = _ := run_assignAll
  rw [helements] at hrun
  unfold calculate calculation final
  rw [feed_error (hrun.trans (bind_error hfirst))]
  rfl

/-- The main component waits for no input when it is created, and so the first one that is counted
    is one too many. -/
theorem runMain_underflow (enter : Enter) {c : Computation} (hc : c.circuit = circuit)
    (hempty : c.registry = Registry.empty circuit.totalComponents) : ∃ c', runMain enter c
      = .error (.refused (.graphDefect .mainComponent "main" .counterUnderflow)) c' := by
  subst hc
  have hpos : 0 < c.registry.capacity := by
    rw [hempty, Registry.capacity_empty]
    exact Nat.pos_of_ne_zero h.components
  obtain ⟨reg, hreg⟩ : ∃ reg, c.registry.create .mainComponent c.mainRecord = .ok reg :=
    ⟨_, Registry.create_of_free _ (by rw [hempty, Registry.get?_empty]) hpos⟩
  have hr := (Registry.sets_create hreg).self
  have hcreate : create enter .mainComponent c.circuit.mainTemplate c.circuit.mainSignalStart
      "main" none c = _ := create_ok h.main hreg
  rw [if_neg h.inputs] at hcreate
  have hcount : countInput .mainComponent (c.enrolled reg .mainComponent c.circuit.mainTemplate)
      = _ := countInput_underflow hr h.zero
  have hlabel : reg.label .mainComponent = "main" := by
    unfold Registry.label
    rw [hr]
    rfl
  obtain ⟨n, hn⟩ := Nat.exists_eq_succ_of_ne_zero h.inputs
  refine ⟨c.enrolled reg .mainComponent c.circuit.mainTemplate, (bind_ok hcreate).trans ?_⟩
  show arriveAll enter (List.range' c.circuit.mainInputStart c.circuit.mainShape.inputs) _ = _
  rw [hn, List.range'_succ]
  refine (bind_error (arrive_error hcount)).trans ?_
  unfold Computation.defect
  show EStateM.Result.error (Fault.refused (.graphDefect _ (reg.label _) _)) _ = _
  rw [hlabel]

/-- In order, all values are written before that happens. -/
theorem calculateOrdered_eq (htrace : config.recordTrace = false)
    (hinside : circuit.mainInputStart + circuit.mainInputCount ≤ circuit.totalSignals)
    (hlen : values.length = circuit.mainInputCount) : circuit.calculateOrdered config values
      = .error (.refused (.graphDefect .mainComponent "main" .counterUnderflow)) := by
  have hset := setSignals_eq values (c := .start circuit config) (i := circuit.mainInputStart)
    (by rw [untraced_start circuit htrace]; rfl)
    (by rw [Computation.size_start, hlen]; exact hinside)
  obtain ⟨c', hrun⟩ := h.runMain_underflow (enterWithin circuit.totalComponents)
    (c := circuit.loaded config values) rfl rfl
  have hfeed : feedOrdered values (.start circuit config)
      = .error (.refused (.graphDefect .mainComponent "main" .counterUnderflow)) c' := by
    refine (feedOrdered_of_length hlen).trans ((bind_ok hset).trans ?_)
    show runMain (enterWithin (Registry.empty circuit.totalComponents).capacity) _ = _
    rw [Registry.capacity_empty]
    exact hrun
  unfold calculateOrdered final
  rw [hfeed]
  rfl

end Uncounted

/-- A main template with some inputs, all of them in one row, and nothing to do. -/
def wideShape (n : Nat) : TemplateShape := ⟨"Wide", 0, n, n, 0⟩

/-- One declared input that is the whole input block. -/
def wideDescription (n : Nat) : CircuitDescription where
  name := "wide"
  totalSignals := n + 1
  templates := ⟨#[some ⟨wideShape n, fun _ => pure (), none⟩]⟩
  inputs := ⟨[⟨"in", 0, n⟩]⟩

def wide (n : Nat) : Circuit := ⟨wideDescription n, wideShape n⟩

theorem accept_wide (n : Nat) : (wideDescription n).accept = .ok (wide n) := by
  have hinputs : checkInputs n [] (wideDescription n).inputs.signals = .ok () :=
    checkInputs_cons (Nat.le_of_eq (Nat.zero_add n)) fun _ _ => rfl
  have hcoverage : (wideDescription n).checkCoverage n = .ok () :=
    CircuitDescription.checkCoverage_ok hinputs fun i hi => List.any_eq_true.mpr
      ⟨_, List.mem_cons_self .., InputSignal.covers_iff.mpr
        ⟨Nat.zero_le i, Nat.lt_of_lt_of_eq hi (Nat.zero_add n).symm⟩⟩
  exact CircuitDescription.accept_ok rfl rfl (CircuitDescription.check_ok Nat.one_ne_zero
    Nat.one_ne_zero (Nat.le_of_eq (Nat.add_comm 1 n)) hcoverage nofun)

theorem wide_findName (n : Nat) : (wide n).inputs.findName? "in" = some ⟨"in", 0, n⟩ :=
  InputMap.find?_of_mem (m := (wide n).inputs) (List.nodup_singleton _) (List.mem_cons_self ..)

/-- A row of values for a wide circuit is a row of values for its only input. -/
theorem wide_gives {n : Nat} {values : List Scalar} (h : values.length = n) :
    (wide n).Gives values ⟨[("in", values)]⟩ := by
  have hslice : InputSignal.slice ⟨"in", 0, n⟩ values = values :=
    List.take_of_length_le (Nat.le_of_eq h)
  show List.Perm [("in", values)] [("in", InputSignal.slice ⟨"in", 0, n⟩ values)]
  rw [hslice]

/-- With a multiple of `2 ^ 32` main inputs the ways of feeding them differ: nothing is granted by
    address or by name, and in order it is the main component that is refused an input. -/
theorem wide_disagrees {n : Nat} (hn : n ≠ 0) (hword : n % UInt32.size = 0)
    {values : List Scalar} (hlen : values.length = n) (v : Scalar) :
    (wide n).calculateOrdered {} values
      = .error (.refused (.graphDefect .mainComponent "main" .counterUnderflow)) ∧
    (wide n).calculate {} ⟨[("in", values)]⟩ = .error (.refused .allInputsAssigned) ∧
    Procedure.run (Procedure.assignByHash (inputHash "in") 0 v) (.start (wide n) {})
      = .error (.refused .allInputsAssigned) (.start (wide n) {}) := by
  have h : (wide n).Uncounted := ⟨rfl, Nat.one_ne_zero, hn, hword⟩
  refine ⟨h.calculateOrdered_eq rfl (Nat.le_of_eq (Nat.add_comm 1 n)) hlen, ?_, ?_⟩
  · cases values with
    | nil => exact absurd hlen.symm hn
    | cons v rest =>
      exact h.calculate_eq (x := ⟨"in", 0, v⟩) (s := ⟨"in", 0, n⟩) rfl (wide_findName n)
  · exact (congrFun (Procedure.runWith_request (.assignByHash (inputHash "in") 0 v)) _).trans
      (h.assignByHash_eq ..)

/-- A circuit with `2 ^ 32` main inputs is accepted, and its input block lies inside the store.  A
    row of so many values is refused at its first element by name and by address, and in order when
    the main component counts its first input. -/
theorem feeds_disagree_wide :
    InputMap.ofList [⟨"in", 0, 2 ^ 32⟩] = .ok (wideDescription (2 ^ 32)).inputs ∧
    (wideDescription (2 ^ 32)).accept = .ok (wide (2 ^ 32)) ∧
    (wideDescription (2 ^ 32)).inputs.isEmpty = false ∧
    (wide (2 ^ 32)).mainInputStart + (wide (2 ^ 32)).mainInputCount
      ≤ (wide (2 ^ 32)).totalSignals ∧
    (List.replicate (2 ^ 32) (5 : Scalar)).length = (wide (2 ^ 32)).mainInputCount ∧
    (wide (2 ^ 32)).Gives (List.replicate (2 ^ 32) 5) ⟨[("in", List.replicate (2 ^ 32) 5)]⟩ ∧
    (wide (2 ^ 32)).calculateOrdered {} (List.replicate (2 ^ 32) 5)
      = .error (.refused (.graphDefect .mainComponent "main" .counterUnderflow)) ∧
    (wide (2 ^ 32)).calculate {} ⟨[("in", List.replicate (2 ^ 32) 5)]⟩
      = .error (.refused .allInputsAssigned) ∧
    Procedure.run (Procedure.assignByHash (inputHash "in") 0 5) (.start (wide (2 ^ 32)) {})
      = .error (.refused .allInputsAssigned) (.start (wide (2 ^ 32)) {}) :=
  ⟨rfl, accept_wide _, rfl, Nat.le_of_eq (Nat.add_comm 1 _), List.length_replicate,
    wide_gives List.length_replicate,
    wide_disagrees (by decide) (by decide) List.length_replicate 5⟩

end Circuit
end CircuitWitness
