import CircuitWitness.Proofs.Meets
import CircuitWitness.Proofs.Supply
/-
  A component that a caller creates and feeds.

  The inputs of a component may be written in any order, one write for each of them.  The component
  waits until the last write, and with that one its body begins, in a view in which every input
  holds its value.  A component without inputs begins as soon as it is created, and nothing is
  written.  So, whatever the order is, the caller's run comes to what the body comes to.

  In contrast to `Procedure.writes_in_any_order`, a trace may be recorded here: views do not show
  it.
-/

namespace CircuitWitness

open CircuitWitness.Action

/-! ## A fresh computation -/

namespace Computation

variable (circuit : Circuit) (config : Config)

@[simp] theorem size_view_start : (start circuit config).view.size = circuit.totalSignals :=
  (SignalStore.size_write ..).trans (SignalStore.size_allocate _)

@[simp] theorem capacity_view_start :
    (start circuit config).view.capacity = circuit.totalComponents :=
  Registry.capacity_empty _

/-- There is no component yet. -/
@[simp] theorem records_view_start (id : Handle) :
    (start circuit config).view.records id = none :=
  Registry.get?_empty _ id

theorem nesting_start : (start circuit config).nesting = circuit.totalComponents :=
  Registry.capacity_empty _

end Computation

/-! ## Creating and feeding -/

/-- Create a component and write its inputs in an order of one's own. -/
def Procedure.byHand (id : Handle) (t : TemplateId) (start : Nat) (label : String)
    (parent : Option Handle) (order : List Nat) (values : Nat → Scalar) : Procedure Unit := do
  create id t start label parent
  order.forM fun l => writeInput id l (values l)

/-- The inputs of a component at a block, and the component itself. -/
def TemplateShape.inputRegion (shape : TemplateShape) (id : Handle) (start : Nat) : Region :=
  ⟨start + shape.inputStart, shape.inputs, id.index, 1⟩

/-- An input is written and counted, and nothing else has happened. -/
theorem View.within_inputRegion {shape : TemplateShape} {id : Handle} {start l : Nat} {w : View}
    (hl : shape.isInput l = true) (v : Scalar) (r : Component) :
    w.Within (shape.inputRegion id start) ((w.write (start + l) v).put id r) := by
  have hbounds := TemplateShape.isInput_iff.mp hl
  refine ((Within.refl _ w).write v ?_).put r ⟨Nat.le_refl _, Nat.lt_succ_self _⟩
  unfold TemplateShape.inputRegion TemplateShape.inputStart
  simp only
  omega

namespace Procedure.Meets

variable {enter : Enter} {w : View} {id : Handle} {r : Component} {shape : TemplateShape}
  {body : Body} {t : TemplateId} {start : Nat} {label : String} {parent : Option Handle}
  {order : List Nat} {values : Nat → Scalar} {Q : Unit → View → Prop} {E : Fault → View → Prop}

/-- The writes of all inputs that are missing start the body.  Then the inputs that were written
    hold their values, and so do those that held them before. -/
theorem writeInputs (h : w.records id = some r) (hcreated : r.stage = .created)
    (hshape : w.circuit.templates.shape? r.template = some shape)
    (hall : ∀ l ∈ order, shape.isInput l = true)
    (hinside : r.signalStart + shape.inputEnd ≤ w.size) (hp : r.pending = order.length)
    (hne : order ≠ [])
    (hbody : w.circuit.templates.body? r.template w.config.useAlternate = some body)
    (hrun : ∀ w', w.Within (shape.inputRegion id r.signalStart) w' →
      (∀ l, l ∈ order ∨ w.signals (r.signalStart + l) = some (values l) →
        w'.signals (r.signalStart + l) = some (values l)) →
      w'.records id = some { r with pending := 0, stage := .running } →
      (enter body id).Meets w' (fun _ w'' => ∃ r', w''.records id = some r' ∧
        Q () (w''.put id { r' with stage := .finished })) E) :
    Meets enter (order.forM fun l => Procedure.writeInput id l (values l)) w Q E := by
  induction order generalizing w r with
  | nil => exact absurd rfl hne
  | cons l rest ih =>
    have hl := hall l (List.mem_cons_self ..)
    have hlt : r.signalStart + l < w.size := by
      have hbounds := TemplateShape.isInput_iff.mp hl
      unfold TemplateShape.inputEnd at hinside
      omega
    -- What the write leaves, whatever becomes of the record.
    have hsignals : ∀ r' l', l' = l ∨ w.signals (r.signalStart + l') = some (values l') →
        ((w.write (r.signalStart + l) (values l)).put id r').signals (r.signalStart + l')
          = some (values l') := by
      intro r' l' hl'
      rw [View.signals_put]
      by_cases he : l = l'
      · subst he
        exact View.signals_write_self ..
      · rw [View.signals_write_ne _ _ _ _ (by omega)]
        exact hl'.resolve_left (Ne.symm he)
    by_cases hlast : rest = []
    · subst hlast
      refine .bind (.writeInput_last h hcreated hshape hl hlt hp hbody ?_)
      refine (hrun _ (View.within_inputRegion hl _ _) (fun l' hl' => hsignals _ l' ?_)
        (View.records_put_self ..)).mono (fun _ w' ⟨r', hr', hQ⟩ => ⟨r', hr', .pure hQ⟩)
        fun _ _ hE => hE
      simpa using hl'
    · refine .bind (.writeInput h hcreated hshape hl hlt hp (by simpa using hlast) ?_)
      refine ih (r := { r with pending := rest.length }) (View.records_put_self ..) hcreated
        ?_ (fun l' hl' => hall l' (List.mem_cons_of_mem l hl')) ?_ rfl hlast ?_
        fun w' hw' hwritten hr' => hrun w' ((View.within_inputRegion hl _ _).trans hw')
          (fun l' hl' => hwritten l' ?_) hr'
      · rwa [View.circuit_put, View.circuit_write]
      · rwa [View.size_put, View.size_write]
      · rwa [View.circuit_put, View.circuit_write, View.config_put, View.config_write]
      · rw [List.mem_cons] at hl'
        rcases hl' with (he | hmem) | hheld
        · exact .inr (hsignals _ l' (.inl he))
        · exact .inl hmem
        · exact .inr (hsignals _ l' (.inr hheld))

/-- **A component that is fed by hand comes to what its body comes to**, in whatever order its
    inputs are written. -/
theorem byHand (hfree : w.records id = none) (hid : id.index < w.capacity)
    (hshape : w.circuit.templates.shape? t = some shape) (hcounts : shape.inputs < 2 ^ 32)
    (hinside : start + shape.inputEnd ≤ w.size)
    (hbody : w.circuit.templates.body? t w.config.useAlternate = some body)
    (horder : order.Perm (List.range' shape.inputStart shape.inputs))
    (hrun : ∀ w', w.Within (shape.inputRegion id start) w' →
      (∀ l ∈ order, w'.signals (start + l) = some (values l)) →
      w'.records id = some { Component.fresh t start 0 shape.slots label parent with
        stage := .running } →
      (enter body id).Meets w' (fun _ w'' => ∃ r', w''.records id = some r' ∧
        Q () (w''.put id { r' with stage := .finished })) E) :
    Meets enter (Procedure.byHand id t start label parent order values) w Q E := by
  refine .bind (.request (.of_step (fun c hc => create_step enter start label parent hfree hid
    hshape hc) ?_))
  rw [TemplateShape.inputCounter_eq hcounts]
  have hlength := horder.length_eq
  rw [List.length_range'] at hlength
  by_cases hn : shape.inputs = 0
  · -- There is nothing to write, and the body begins at once.
    have hnil : order = [] := List.eq_nil_of_length_eq_zero (hlength.trans hn)
    subst hnil
    rw [if_pos hn, hn]
    refine .trigger (View.records_put_self ..) rfl rfl
      (by rwa [View.circuit_put, View.config_put]) ?_
    rw [View.put_put]
    exact (hrun _ (.put (.refl _ _) _ ⟨Nat.le_refl _, Nat.lt_succ_self _⟩)
      (fun l hl => nomatch hl) (View.records_put_self ..)).mono
      (fun _ w' ⟨r', hr', hQ⟩ => ⟨r', hr', .pure hQ⟩) fun _ _ hE => hE
  · rw [if_neg hn]
    refine .pure (writeInputs (View.records_put_self ..) rfl ?_ ?_ ?_ hlength.symm ?_ ?_
      fun w' hw' hwritten hr' => hrun w'
        (hw'.of_put ⟨fun _ h => h, fun _ h => h⟩ ⟨Nat.le_refl _, Nat.lt_succ_self _⟩)
        (fun l hl => hwritten l (.inl hl)) hr')
    · rwa [View.circuit_put]
    · exact fun l hl => TemplateShape.isInput_of_mem (horder.mem_iff.mp hl)
    · rwa [View.size_put]
    · rintro rfl
      exact hn hlength.symm
    · rwa [View.circuit_put, View.config_put]

end Procedure.Meets
end CircuitWitness
