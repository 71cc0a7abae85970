import CircuitWitness.Proofs.Outcome
import CircuitWitness.Proofs.Table
import CircuitWitness.Sample.Circuit
/-
  The sample circuits are accepted.

  The table of the sample templates has each of them at the place of its identity, and none has an
  alternate body; so a component of one of them runs the one body there is, whatever the
  configuration prefers.

  An array of multipliers is accepted whatever its width is: its two inputs lie side by side, and
  together they are the main inputs.
-/

namespace CircuitWitness

/-! ## The table -/

namespace TemplateTable

/-- The next identity takes the next place. -/
theorem insert_next {t : TemplateTable} {id : TemplateId} (e : Template)
    (h : id.index = t.entries.size) : t.insert id e = .ok ⟨t.entries.push (some e)⟩ := by
  have hfree : t.get? id = none := by
    unfold get?
    rw [h, Array.getElem?_eq_none (Nat.le_refl _)]
    rfl
  have hput : (t.entries.push none).setIfInBounds t.entries.size (some e)
      = t.entries.push (some e) := by grind
  unfold insert
  rw [install_new hfree]
  simp [reserve, fill, h, hput]

/-- Templates that are entered in the order of their identities stand in that order. -/
theorem insert_all {l : List (TemplateId × Template)} {t : TemplateTable}
    (h : l.map (fun e => e.1.index) = List.range' t.entries.size l.length) :
    l.foldlM (fun t e => t.insert e.1 e.2) t
      = .ok ⟨t.entries ++ (l.map fun e => some e.2).toArray⟩ := by
  induction l generalizing t with
  | nil => simp; rfl
  | cons e l ih =>
    rw [List.map_cons, List.length_cons, List.range'_succ, List.cons.injEq] at h
    have hrest := ih (t := ⟨t.entries.push (some e.2)⟩) (by rw [Array.size_push]; exact h.2)
    rw [List.foldlM_cons, insert_next e.2 h.1]
    refine hrest.trans ?_
    simp

end TemplateTable

/-- A template without an alternate runs its body, whatever is preferred. -/
theorem Template.chosen_eq {e : Template} (h : e.alternate = none) (prefer : Bool) :
    e.chosen prefer = e.body := by
  unfold chosen runsAlternate
  rw [h, Option.isSome_none, Bool.and_false]
  rfl

namespace Sample

/-- The table of the sample templates. -/
def entries (k : Nat) : TemplateTable := ⟨((templates k).map fun e => some e.2).toArray⟩

/-- The sample templates, entered in their order, fill the table. -/
theorem table_eq (k : Nat) : table k = .ok (entries k) := by
  have h := TemplateTable.insert_all (l := templates k) (t := .empty) rfl
  rwa [show (TemplateTable.empty.entries : Array (Option Template)) = #[] from rfl,
    Array.empty_append] at h

/-- No sample template has an alternate. -/
theorem alternate_templates (k : Nat) : ∀ e ∈ templates k, e.2.alternate = none := by
  simp [templates]

theorem validate_entries (k : Nat) : (entries k).validate = .ok () := rfl

/-- A circuit with the sample templates, and with the constants that they use. -/
structure Runs (circuit : Circuit) (k : Nat) : Prop where
  templates : circuit.templates = entries k
  constants : circuit.constants = Sample.constants

namespace Runs

variable {circuit : Circuit} {k : Nat} {e : Template}

/-- A circuit that runs the sample finds each template at its place in the list, -/
theorem get? (h : Runs circuit k) (id : TemplateId)
    (he : (Sample.templates k)[id.index]? = some (id, e)) :
    circuit.templates.get? id = some e := by
  unfold TemplateTable.get?
  rw [h.templates]
  simp [entries, he]

/-- and so its shape. -/
theorem shape? (h : Runs circuit k) (id : TemplateId)
    (he : (Sample.templates k)[id.index]? = some (id, e)) :
    circuit.templates.shape? id = some e.shape := by
  unfold TemplateTable.shape?
  rw [h.get? id he]
  rfl

/-- A component runs the body of its template, whether or not alternates are preferred. -/
theorem body? (h : Runs circuit k) (id : TemplateId)
    (he : (Sample.templates k)[id.index]? = some (id, e))
    (prefer : Bool) : circuit.templates.body? id prefer = some e.body := by
  unfold TemplateTable.body?
  rw [h.get? id he, Option.map_some,
    Template.chosen_eq (alternate_templates k _ (List.mem_of_getElem? he))]

/-- There are no other templates. -/
theorem of_get? (h : Runs circuit k) {t : TemplateId} (he : circuit.templates.get? t = some e) :
    ∃ id, (id, e) ∈ Sample.templates k := by
  unfold TemplateTable.get? at he
  rw [h.templates, Option.join_eq_some_iff] at he
  have hmem := Array.mem_of_getElem? he
  simp only [entries, List.mem_toArray, List.mem_map, Option.some.injEq] at hmem
  obtain ⟨⟨id, _⟩, hmem, rfl⟩ := hmem
  exact ⟨id, hmem⟩

/-- The two entries of the pool are those that the bodies ask for. -/
theorem one (h : Runs circuit k) : circuit.constants.get? oneConstant = some 1 := by
  rw [h.constants]
  rfl

theorem seed (h : Runs circuit k) :
    circuit.constants.get? seedConstant = some (Scalar.ofNat Sample.seed) := by
  rw [h.constants]
  rfl

end Runs

/-- What a component needs around it: the templates, and room for the signals and the handles of
    its own and of its descendants. -/
structure Room (w : View) (id : Handle) (start signals components : Nat) : Prop where
  runs : ∃ k, Runs w.circuit k
  signals : start + signals ≤ w.size
  handles : id.index + components ≤ w.capacity
  words : id.index + components ≤ Handle.limit

namespace Room

variable {w w' : View} {R : Region} {id : Handle} {start signals components : Nat}

/-- Room is a matter of sizes, and these are kept. -/
theorem within (h : Room w id start signals components) (hw : w.Within R w') :
    Room w' id start signals components where
  runs := hw.circuit.symm ▸ h.runs
  signals := hw.size.symm ▸ h.signals
  handles := hw.capacity.symm ▸ h.handles
  words := h.words

theorem put (h : Room w id start signals components) (other : Handle) (r : Component) :
    Room (w.put other r) id start signals components :=
  h.within ((View.Within.refl ⟨0, 0, other.index, 1⟩ w).put r ⟨Nat.le_refl _, Nat.lt_succ_self _⟩)

/-- Part of it is room for a child. -/
theorem child (h : Room w id start signals components) {offset place signals' components' : Nat}
    (hsignals : place + signals' ≤ signals) (hcomponents : offset + components' ≤ components) :
    Room w ⟨id.index + offset⟩ (start + place) signals' components' := by
  obtain ⟨hruns, hsize, hhandles, hwords⟩ := h
  refine ⟨hruns, by omega, ?_, ?_⟩
  · simp only
    omega
  · simp only
    omega

/-- A child that waits for its inputs is created there, and finds its part of the room as its
    parent has left it.  What then keeps to that part keeps to it from before the creation on, but
    for the slot of the parent. -/
theorem newChild {β : Type} {enter : Enter} {r : Component} {shape : TemplateShape}
    {t : TemplateId} {slot offset place : Nat} {name : String} {p : Handle → Procedure β}
    {Q : β → View → Prop} {E : Fault → View → Prop} (signals' components' : Nat)
    (h : Room w id start signals components) (hr : w.records id = some r)
    (hslot : slot < r.slots.size) (hpos : offset ≠ 0) (hcomponents' : 0 < components')
    (hsignals : place + signals' ≤ signals) (hcomponents : offset + components' ≤ components)
    (hfree : ∀ j, offset ≤ j → j < offset + components' → w.records ⟨id.index + j⟩ = none)
    (hshape : w.circuit.templates.shape? t = some shape) (hn : shape.inputs ≠ 0)
    (hQ : ∀ w₁ : View, w₁.circuit = w.circuit →
      Room w₁ ⟨id.index + offset⟩ (start + place) signals' components' →
      w₁.records ⟨id.index + offset⟩ = some
        (Component.fresh t (start + place) shape.inputCounter shape.slots name (some id)) →
      (∀ j, 1 ≤ j → j < components' → w₁.records ⟨id.index + offset + j⟩ = none) →
      (∀ i l, w.Holds i l → w₁.Holds i l) →
      (∀ w', w₁.Within ⟨start + place, signals', id.index + offset, components'⟩ w' →
        (w.put id { r with slots := r.slots.setIfInBounds slot (some ⟨id.index + offset⟩) }).Within
          ⟨start + place, signals', id.index + offset, components'⟩ w') →
      Procedure.Meets enter (p ⟨id.index + offset⟩) w₁ Q E) :
    Procedure.Meets enter (do
      let child ← Procedure.handleAfter id offset
      Procedure.createChild id slot child t (start + place) name
      let child ← Procedure.child id slot
      p child) w Q E := by
  have hwords := h.words
  have hhandles := h.handles
  refine .newChild hr hslot hpos (by omega) (by omega) (hfree offset (Nat.le_refl _) (by omega))
    hshape hn fun w₁ hw₁ hr₁ => hQ w₁ (hw₁.circuit.trans (View.circuit_put ..))
      (((h.put id _).within hw₁).child hsignals hcomponents) hr₁ (fun j hj hj' => ?_)
      (fun i l hl => hw₁.holds_of_put hl (.inr (Nat.zero_le _)))
      fun w' hw' => .trans (hw₁.mono ⟨fun _ _ => .inr (Nat.zero_le _), fun i hi => ?_⟩) hw'
  · rw [hw₁.records _ (by simp only; omega), Nat.add_assoc,
      View.records_put_ne _ _ _ _ (id.ne_after (by omega))]
    exact hfree (offset + j) (by omega) (by omega)
  · simp only at hi ⊢
    omega

end Room

/-! ## The circuits -/

/-- An array of multipliers, as it is handed over. -/
def arrayDescription (k : Nat) : CircuitDescription where
  name := "multiplier_array"
  totalSignals := 1 + multiplierArraySignals k
  totalComponents := multiplierArrayComponents k
  mainTemplate := multiplierArrayId
  constants := constants
  templates := entries k
  inputs := ⟨[⟨"a", 0, k⟩, ⟨"b", k, k⟩]⟩

/-- An array of multipliers, as it is accepted. -/
def arrayCircuit (k : Nat) : Circuit := ⟨arrayDescription k, multiplierArrayShape k⟩

/-- The index of the inputs is as the builder makes it; names are compared there, widths are
    not. -/
theorem arrayInputs_eq (k : Nat) :
    InputMap.ofList [⟨"a", 0, k⟩, ⟨"b", k, k⟩] = .ok (arrayDescription k).inputs := by
  refine InputMap.ofList_of_nodup ?_
  show [inputHash "a", inputHash "b"].Nodup
  decide +kernel

/-- The two inputs lie side by side, and together they are the main inputs. -/
theorem checkCoverage_array (k : Nat) : (arrayDescription k).checkCoverage (2 * k) = .ok () := by
  refine CircuitDescription.checkCoverage_ok ?_ fun i hi => ?_
  · show checkInputs (2 * k) [] [⟨"a", 0, k⟩, ⟨"b", k, k⟩] = .ok ()
    rw [checkInputs_cons (by unfold InputSignal.stop; simp only; omega) fun i _ => rfl,
      checkInputs_cons (by unfold InputSignal.stop; simp only; omega) fun i hi => ?_]
    · rfl
    · rw [List.mem_range'_1] at hi
      simp only at hi
      simp [coveredBy, InputSignal.covers, InputSignal.stop]
      omega
  · show coveredBy [⟨"a", 0, k⟩, ⟨"b", k, k⟩] i = true
    simp only [coveredBy, List.any_cons, List.any_nil, Bool.or_false, Bool.or_eq_true,
      InputSignal.covers_iff]
    unfold InputSignal.stop
    simp only
    omega

/-- The description of the array is accepted for every width. -/
theorem accept_array (k : Nat) : (arrayDescription k).accept = .ok (arrayCircuit k) := by
  refine CircuitDescription.accept_ok (validate_entries k) rfl
    (CircuitDescription.check_ok (Nat.succ_ne_zero k) Nat.one_ne_zero ?_ (checkCoverage_array k) ?_)
  · show 1 + 3 * k ≤ 1 + (3 * k + k * 3)
    omega
  · exact fun signal hs => nomatch hs

/-- So the builder answers with the circuit that the proofs are about. -/
theorem multiplierArray_eq (k : Nat) : multiplierArray k = .ok (arrayCircuit k) := by
  unfold multiplierArray
  rw [arrayInputs_eq, table_eq]
  exact accept_array k

/-- The circuit of one multiplier, as it is handed over. -/
def multiplierDescription : CircuitDescription where
  name := "multiplier"
  totalSignals := 1 + multiplierShape.signals
  totalComponents := 1
  mainTemplate := multiplierId
  constants := constants
  templates := entries arrayWidth
  inputs := ⟨[⟨"a", 0, 1⟩, ⟨"b", 1, 1⟩]⟩

/-- The circuit of one multiplier, as it is accepted. -/
def multiplierCircuit : Circuit := ⟨multiplierDescription, multiplierShape⟩

theorem multiplierInputs_eq :
    InputMap.ofList [⟨"a", 0, 1⟩, ⟨"b", 1, 1⟩] = .ok multiplierDescription.inputs :=
  arrayInputs_eq 1

/-- The same of the circuit with a single multiplier. -/
theorem accept_multiplier : multiplierDescription.accept = .ok multiplierCircuit :=
  CircuitDescription.accept_ok (validate_entries arrayWidth) rfl
    (CircuitDescription.check_ok (by decide) Nat.one_ne_zero (by decide) rfl (by decide))

theorem multiplier_eq : multiplier = .ok multiplierCircuit := by
  unfold multiplier
  rw [multiplierInputs_eq, table_eq]
  exact accept_multiplier

/-- The large circuit, as it is handed over. -/
def sampleDescription : CircuitDescription where
  name := "sample"
  totalSignals := totalSignals
  totalComponents := totalComponents
  mainTemplate := mainId
  constants := constants
  templates := entries arrayWidth
  inputs := ⟨[⟨"a", 0, arrayWidth⟩, ⟨"b", arrayWidth, arrayWidth⟩, ⟨"x", 2 * arrayWidth, 1⟩,
    ⟨"flag", 2 * arrayWidth + 1, 1⟩]⟩
  witness := List.range leafStart ++ [gateStart]

/-- The large circuit, as it is accepted. -/
def sampleCircuit : Circuit := ⟨sampleDescription, mainShape⟩

theorem sampleInputs_eq : InputMap.ofList [⟨"a", 0, arrayWidth⟩, ⟨"b", arrayWidth, arrayWidth⟩,
    ⟨"x", 2 * arrayWidth, 1⟩, ⟨"flag", 2 * arrayWidth + 1, 1⟩] = .ok sampleDescription.inputs := by
  refine InputMap.ofList_of_nodup ?_
  show [inputHash "a", inputHash "b", inputHash "x", inputHash "flag"].Nodup
  decide +kernel

/-- And of the large circuit. -/
theorem accept_sample : sampleDescription.accept = .ok sampleCircuit := by
  refine CircuitDescription.accept_ok (validate_entries arrayWidth) rfl
    (CircuitDescription.check_ok (by decide) Nat.one_ne_zero (by decide) rfl (by decide))

theorem sample_eq : sample = .ok sampleCircuit := by
  unfold sample
  rw [sampleInputs_eq, table_eq]
  exact accept_sample

end Sample
end CircuitWitness
