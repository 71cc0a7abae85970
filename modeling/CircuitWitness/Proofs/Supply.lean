import CircuitWitness.Proofs.Missing
import CircuitWitness.Proofs.Procedure
/-
  The inputs of a component may come in any order.

  A component that waits for its inputs can be in few states, as long as it is only being fed: its
  record is the one it was created with except for the count, and the store is the old one with
  some inputs written (`Computation.supplied`).  Each write but the last leads from one such state
  to the next.  The last write begins the body, and by then all inputs are written, so the state in
  which the body begins does not depend on the order.

  This needs a computation without a trace: a trace tells the order of the writes.
-/

namespace CircuitWitness

open CircuitWitness.Action

/-- A trace that is switched off records nothing. -/
theorem Trace.record_off {t : Trace} (h : t.enabled = false) (e : Event) : t.record e = t := by
  unfold record
  rw [h]
  rfl

/-- A change that leaves the record as it is leaves the registry as it is. -/
theorem Registry.modify_self {reg : Registry} {id : Handle} {r : Component}
    {f : Component → Component} (hr : reg.get? id = some r) (hf : f r = r) :
    reg.modify id f = reg := by
  obtain ⟨records⟩ := reg
  unfold modify
  congr 1
  refine Array.ext_getElem? fun i => ?_
  rw [Array.getElem?_modify]
  split
  · rename_i hi
    subst hi
    have hslot : records[id.index]? = some (some r) := Option.join_eq_some_iff.mp hr
    rw [hslot]
    simp [hf]
  · rfl

theorem Registry.modify_modify (reg : Registry) (id : Handle) (f g : Component → Component) :
    (reg.modify id f).modify id g = reg.modify id fun r => g (f r) := by
  obtain ⟨records⟩ := reg
  unfold modify
  congr 1
  refine Array.ext_getElem? fun i => ?_
  simp only [Array.getElem?_modify]
  split
  · rw [Option.map_map]
    congr 1
    funext slot
    cases slot <;> rfl
  · rfl

/-- The local signals of the input block are the inputs. -/
theorem TemplateShape.isInput_of_mem {shape : TemplateShape} {l : Nat}
    (h : l ∈ List.range' shape.inputStart shape.inputs) : shape.isInput l = true := by
  rw [isInput_iff]
  exact List.mem_range'_1.mp h

namespace Computation

/-- Some inputs of a component are written, at a block from `start` on, and so many others are
    still to come. -/
def supplied (c : Computation) (id : Handle) (start : Nat) (values : Nat → Scalar)
    (locals : List Nat) (remaining : Nat) : Computation :=
  { c with store := c.store.writeAll start values locals }.counted id remaining

variable {c : Computation} {id : Handle} {r : Component} {shape : TemplateShape}
  {values : Nat → Scalar} {locals rest : List Nat} {l n : Nat} {enter : Enter}

/-- Before the first input is written, nothing has changed. -/
theorem supplied_nil (hr : c.registry.get? id = some r) :
    c.supplied id r.signalStart values [] r.pending = c := by
  unfold supplied counted modified
  rw [Registry.modify_self hr rfl]
  rfl

/-- Without a trace, a write that is counted takes one waiting state to the next. -/
theorem supplied_arrived (htrace : c.trace.enabled = false) (start m n : Nat) :
    ((c.supplied id start values locals m).wrote (start + l) (values l)).arrived id (start + l) n
      = c.supplied id start values (locals ++ [l]) n := by
  unfold arrived recorded counted modified wrote recorded supplied counted modified
  simp only [Trace.record_off htrace, Registry.modify_modify, SignalStore.writeAll_concat]

/-- A component that waits for its inputs, which have their place in the store, in a computation
    without a trace. -/
structure Waits (c : Computation) (id : Handle) (r : Component) (shape : TemplateShape) : Prop where
  record : c.registry.get? id = some r
  created : r.stage = .created
  template : c.circuit.templates.shape? r.template = some shape
  inside : r.signalStart + shape.inputEnd ≤ c.store.size
  untraced : c.trace.enabled = false

namespace Waits

theorem record_supplied (h : c.Waits id r shape) (values : Nat → Scalar) (start : Nat)
    (locals : List Nat) (n : Nat) :
    (c.supplied id start values locals n).registry.get? id = some { r with pending := n } :=
  (Registry.sets_modify h.record _).self

/-- An input is written; it was the last one, or others are still to come. -/
theorem writeInput_supplied (h : c.Waits id r shape) (enter : Enter) (values : Nat → Scalar)
    (locals : List Nat) (hl : shape.isInput l = true) (n : Nat) :
    writeInput enter id l (values l) (c.supplied id r.signalStart values locals (n + 1))
      = if n = 0 then trigger enter id (c.supplied id r.signalStart values (locals ++ [l]) 0)
        else .ok () (c.supplied id r.signalStart values (locals ++ [l]) n) := by
  have hget := h.record_supplied values r.signalStart locals (n + 1)
  have hsignal : (c.supplied id r.signalStart values locals (n + 1)).inputSignal id l
      = .ok (r.signalStart + l) :=
    inputSignal_eq (r := { r with pending := n + 1 }) hget h.template hl h.created
  have hlt : r.signalStart + l < (c.store.writeAll r.signalStart values locals).size := by
    have hinside := h.inside
    rw [TemplateShape.isInput_iff] at hl
    rw [SignalStore.size_writeAll]
    unfold TemplateShape.inputEnd at hinside
    omega
  obtain ⟨w, hw⟩ := SignalStore.isWritten?_of_lt hlt
  rw [writeInput_eq hsignal hw]
  by_cases hn : n = 0
  · subst hn
    rw [if_pos rfl, ← supplied_arrived h.untraced r.signalStart (0 + 1) 0]
    exact arrive_last (r := { r with pending := 1 }) hget rfl
  · rw [if_neg hn, ← supplied_arrived h.untraced r.signalStart (n + 1) n]
    exact arrive_waiting (r := { r with pending := n + 1 }) hget rfl hn

/-- Writes that leave an input to come leave the component waiting. -/
theorem supply (h : c.Waits id r shape) (enter : Enter) (values : Nat → Scalar)
    (locals : List Nat) (hrest : ∀ l ∈ rest, shape.isInput l = true) (n : Nat)
    (hn : n ≠ 0) : (rest.forM fun l => writeInput enter id l (values l))
        (c.supplied id r.signalStart values locals (n + rest.length))
      = .ok () (c.supplied id r.signalStart values (locals ++ rest) n) := by
  induction rest generalizing locals with
  | nil =>
    rw [List.append_nil]
    rfl
  | cons l rest ih =>
    have hl := hrest l (List.mem_cons_self ..)
    have hwrite := h.writeInput_supplied enter values locals hl (n + rest.length)
    rw [if_neg (by omega)] at hwrite
    have hnext := ih (locals ++ [l]) fun l' hl' => hrest l' (List.mem_cons_of_mem l hl')
    rw [List.append_assoc] at hnext
    exact (bind_ok hwrite).trans hnext

/-- Some inputs are written, and others are still to come. -/
theorem supply_front (h : c.Waits id r shape) (enter : Enter) (values : Nat → Scalar)
    (hp : r.pending = shape.inputs)
    (hmem : ∀ l ∈ locals, shape.isInput l = true) (hless : locals.length < shape.inputs) :
    (locals.forM fun l => writeInput enter id l (values l)) c
      = .ok () (c.supplied id r.signalStart values locals (shape.inputs - locals.length)) := by
  have hsupply := h.supply enter values [] hmem
    (shape.inputs - locals.length) (by omega)
  rwa [Nat.sub_add_cancel (Nat.le_of_lt hless), ← hp, supplied_nil h.record, hp] at hsupply

/-- The write of the last input starts the body, with all inputs written. -/
theorem supply_all (h : c.Waits id r shape) (hp : r.pending = shape.inputs)
    (hn : shape.inputs ≠ 0) (hall : locals.Perm (List.range' shape.inputStart shape.inputs)) :
    (locals.forM fun l => writeInput enter id l (values l)) c
      = trigger enter id (c.supplied id r.signalStart values
          (List.range' shape.inputStart shape.inputs) 0) := by
  have hlength : locals.length = shape.inputs := by
    rw [hall.length_eq, List.length_range']
  have hmem : ∀ l ∈ locals, shape.isInput l = true :=
    fun l hl => TemplateShape.isInput_of_mem (hall.mem_iff.mp hl)
  rcases List.eq_nil_or_concat locals with rfl | ⟨front, last, rfl⟩
  · exact absurd hlength.symm hn
  rw [List.concat_eq_append] at *
  rw [List.length_append, List.length_singleton] at hlength
  have hfront := h.supply_front enter values hp
    (fun l hl => hmem l (List.mem_append_left _ hl)) (by omega)
  have hlast := h.writeInput_supplied enter values front (hmem last (by simp)) 0
  rw [if_pos rfl] at hlast
  rw [show shape.inputs - front.length = 0 + 1 by omega] at hfront
  have happend : ((front ++ [last]).forM fun l => writeInput enter id l (values l))
      = (front.forM fun l => writeInput enter id l (values l)) >>= fun _ =>
        [last].forM fun l => writeInput enter id l (values l) := List.forM_append
  rw [happend, bind_ok hfront]
  refine (bind_return.trans hlast).trans ?_
  unfold supplied
  rw [SignalStore.writeAll_perm hall]

end Waits
end Computation

/-- **The inputs of a component may be written in any order.**  As long as an input is to come,
    the writes are granted and the component stays as it was created.  The last one starts the
    body, in a state that does not depend on the order; so neither does how the last write ends,
    nor the state in which it ends.  This holds for writes from outside all bodies and from inside
    one alike, since nothing is known of `enter`. -/
theorem Procedure.writes_in_any_order {c : Computation} {id : Handle} {r : Component}
    {shape : TemplateShape} (hr : c.registry.get? id = some r) (hs : r.stage = .created)
    (hshape : c.circuit.templates.shape? r.template = some shape) (hp : r.pending = shape.inputs)
    (hn : 1 ≤ shape.inputs) (hinside : r.signalStart + shape.inputEnd ≤ c.store.size)
    (htrace : c.trace.enabled = false) (values : Nat → Scalar) (enter : Enter) :
    ∃ body, c.circuit.templates.body? r.template c.config.useAlternate = some body ∧
      ∀ order : List Nat, order.Perm (List.range' shape.inputStart shape.inputs) →
        (∀ front back, order = front ++ back → back ≠ [] → ∃ c',
          Procedure.runWith enter (front.forM fun l => writeInput id l (values l)) c = .ok () c' ∧
          c'.registry.stage? id = some .created) ∧
        Procedure.runWith enter (order.forM fun l => writeInput id l (values l)) c
          = runBody enter body id (c.supplied id r.signalStart values
              (List.range' shape.inputStart shape.inputs) 0) := by
  have hwaits : c.Waits id r shape := ⟨hr, hs, hshape, hinside, htrace⟩
  obtain ⟨body, hbody⟩ := TemplateTable.body?_of_shape? hshape c.config.useAlternate
  have hwrites : ∀ locals : List Nat,
      Procedure.runWith enter (locals.forM fun l => writeInput id l (values l))
        = locals.forM fun l => Action.writeInput enter id l (values l) := by
    intro locals
    rw [runWith_forM]
    congr 1
    funext l
    exact runWith_request (.writeInput id l (values l))
  refine ⟨body, hbody, fun order horder => ⟨?_, ?_⟩⟩
  · rintro front back rfl hback
    have hless : front.length < shape.inputs := by
      have hlength := horder.length_eq
      have hpos := List.length_pos_iff.mpr hback
      rw [List.length_append, List.length_range'] at hlength
      omega
    have hmem : ∀ l ∈ front, shape.isInput l = true := fun l hl =>
      TemplateShape.isInput_of_mem (horder.mem_iff.mp (List.mem_append_left _ hl))
    rw [hwrites]
    refine ⟨_, hwaits.supply_front enter values hp hmem hless, ?_⟩
    exact Registry.stage?_eq_some.mpr ⟨_, hwaits.record_supplied .., hs⟩
  · rw [hwrites, hwaits.supply_all hp (by omega) horder]
    exact trigger_eq (startable_eq (hwaits.record_supplied _ _ _ 0) hs rfl hbody)

/-- The main component of the small circuit is created, and no trace is recorded. -/
def relayUntraced : Computation :=
  (create (enterWithin 2) ⟨0⟩ ⟨0⟩ 1 "main" none).after (.start relay {})

/-- The two inputs of the small circuit, the second one first. -/
theorem Procedure.writes_in_any_order_relay :
    Procedure.runWith (enterWithin 2) ([2, 1].forM fun l => writeInput ⟨0⟩ l (Scalar.ofNat l))
        relayUntraced
      = runBody (enterWithin 2) relayBody ⟨0⟩
          (relayUntraced.supplied ⟨0⟩ 1 Scalar.ofNat [1, 2] 0) := by
  obtain ⟨body, hbody, hall⟩ := writes_in_any_order (c := relayUntraced)
    (show relayUntraced.registry.get? ⟨0⟩ = some _ from rfl) rfl
    (show _ = some ⟨"Relay", 1, 2, 3, 1⟩ from rfl) rfl (by decide) (by decide) rfl Scalar.ofNat
    (enterWithin 2)
  obtain rfl : relayBody = body := Option.some.inj hbody
  exact (hall [2, 1] (.swap 1 2 [])).2

end CircuitWitness
