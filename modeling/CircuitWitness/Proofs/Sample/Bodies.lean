import CircuitWitness.Proofs.Sample.Circuit
import CircuitWitness.Proofs.Tidy
/-
  The habits of the sample bodies.

  Each of them ends with the first refusal that it is told of, makes none but the requests that a
  circuit compiler writes, and is tidy: children go into slots that were empty, inputs are written
  to children only, and at the end the children are released.  None of this depends on what the
  signals hold.
-/

namespace CircuitWitness

namespace Sample

open Procedure (Asks)

/-! ## Bodies without children -/

/-- A multiplier reads two signals and writes one; it has no children. -/
theorem multiplierBody_compiled : Body.Compiled multiplierBody := by
  refine .of_still fun self => ?_
  unfold multiplierBody
  exact .bind (.request trivial) fun _ => .bind (.request trivial) fun _ =>
    .bind (.request trivial) fun _ => .request trivial

/-- A constant leaf reads an entry of the pool and writes two signals. -/
theorem constantLeafBody_compiled : Body.Compiled constantLeafBody := by
  refine .of_still fun self => ?_
  unfold constantLeafBody
  exact .bind (.request trivial) fun _ => .bind (.request trivial) fun _ =>
    .bind (.request trivial) fun _ => .request trivial

/-- A round of the decomposition writes a bit, reads it back and asserts that it is one. -/
theorem num2BitsLoop_asks (self : Handle) (start : Nat) (one input : Scalar) (count i : Nat)
    (sum weight : Scalar) :
    (num2BitsLoop self start one input count i sum weight).Asks Request.Still := by
  induction count generalizing i sum weight with
  | zero => exact .pure sum
  | succ count ih =>
    exact .bind (.request trivial) fun _ => .bind (.request trivial) fun _ =>
      .bind (.request trivial) fun _ => ih _ _ _

/-- The decomposition reads its input, goes through its rounds and asserts what the bits add up to.
    -/
theorem num2BitsBody_compiled : Body.Compiled num2BitsBody := by
  refine .of_still fun self => ?_
  unfold num2BitsBody
  exact .bind (.request trivial) fun _ => .bind (.request trivial) fun _ =>
    .bind (.request trivial) fun _ => .bind (num2BitsLoop_asks ..) fun _ => .request trivial

/-- The zero test writes an inverse and an output and asserts that a product is zero. -/
theorem isZeroBody_compiled : Body.Compiled isZeroBody := by
  refine .of_still fun self => ?_
  unfold isZeroBody
  exact .bind (.request trivial) fun _ => .bind (.request trivial) fun _ =>
    .bind (.request trivial) fun _ => .bind (.request trivial) fun _ =>
    .bind (.request trivial) fun _ => .bind (.request trivial) fun _ => .request trivial

/-- A sum only reads. -/
theorem sumSignals_asks (start count : Nat) (sum : Scalar) :
    (sumSignals start count sum).Asks Request.Still := by
  induction count generalizing start sum with
  | zero => exact .pure sum
  | succ count ih => exact .bind (.request trivial) fun _ => ih _ _

/-! ## Arrays -/

/-- The array creates its children, feeds them and releases them. -/
theorem multiplierArrayBody_asks (k : Nat) (self : Handle) :
    (multiplierArrayBody k self).Asks Request.Compiled := by
  unfold multiplierArrayBody
  refine .bind (.request trivial) fun start => .bind (.request trivial) fun name => ?_
  refine .bind (.forM fun i _ => ?_) fun _ => .bind (.forM fun i _ => ?_) fun _ => .request trivial
  · exact .bind (.request trivial) fun _ => .request trivial
  · unfold feedMultiplier
    refine .bind (.request trivial) fun child => .bind (.request trivial) fun a =>
      .bind (.request trivial) fun b => ?_
    split
    all_goals
      exact .bind (.request trivial) fun _ => .bind (.request trivial) fun _ =>
        .bind (.request trivial) fun _ => .bind (.request trivial) fun _ => .request trivial

section

variable {c₀ c : Computation} {self : Handle} {r : Component} {slots : Array (Option Handle)}
  {enter : Enter}

/-- Each round of the first pass fills the next slot. -/
theorem createMultiplier_works {k start i : Nat} {name : String} (henter : enter.Tidy c₀.circuit)
    (h : ∃ slots, c₀.AtWork self r slots c ∧ VacantFrom i slots) :
    Procedure.Yields enter (createMultiplier k self start name i) c fun _ c' =>
      ∃ slots, c₀.AtWork self r slots c' ∧ VacantFrom (i + 1) slots := by
  obtain ⟨slots, h, hvacant⟩ := h
  unfold createMultiplier
  refine h.ask trivial fun child c h => ?_
  exact (h.creates henter hvacant).mono fun _ _ h => ⟨_, h, hvacant.set _⟩

/-- Each round of the second pass writes inputs of a child. -/
theorem feedMultiplier_works {k start i : Nat} (henter : enter.Tidy c₀.circuit)
    (h : c₀.AtWork self r slots c) :
    Procedure.Yields enter (feedMultiplier k self start i) c fun _ c' =>
      c₀.AtWork self r slots c' := by
  unfold feedMultiplier
  refine .bind (h.names.mono ?_)
  rintro child c ⟨hslot, h⟩
  refine h.ask trivial fun a c h => ?_
  refine h.ask trivial fun b c h => ?_
  have hcopy : (do
      let childStart ← Procedure.signalStart child
      let c ← Procedure.signal childStart
      Procedure.setSignal (start + i) c : Procedure Unit).Asks Request.Still :=
    .bind (.request trivial) fun _ => .bind (.request trivial) fun _ => .request trivial
  split
  all_goals
    exact .bind ((h.writes henter hslot).mono fun _ c h =>
      .bind ((h.writes henter hslot).mono fun _ c h => h.asks hcopy))

/-- So it is compiled: children go into slots that were empty, inputs are written to children, and
    at the end these are released. -/
theorem multiplierArrayBody_compiled (k : Nat) : Body.Compiled (multiplierArrayBody k) := by
  refine ⟨multiplierArrayBody_asks k, ?_⟩
  rintro _ enter henter self c r rfl hon hr hvacant
  have h := Computation.AtWork.begin hr hvacant hon
  unfold multiplierArrayBody
  refine h.ask trivial fun start c₁ h => ?_
  refine h.ask trivial fun name c₂ h => ?_
  refine .bind (.forM_range (fun i c' => ∃ slots, c.AtWork self r slots c' ∧ VacantFrom i slots)
    ⟨_, h, hvacant⟩ (fun i c' h => createMultiplier_works henter h) fun c₃ ⟨slots, h, _⟩ => ?_)
  exact .bind (.forM_range (fun _ c' => c.AtWork self r slots c') h
    (fun i c' h => feedMultiplier_works henter h) fun c₄ h => h.releases)

/-! ## Gates -/

/-- The gate creates one child or two, feeds them, adds up what they have computed, and releases
    them. -/
theorem gateBody_asks (self : Handle) : (gateBody self).Asks Request.Compiled := by
  unfold gateBody
  refine .bind (.request trivial) fun start => .bind (.request trivial) fun name =>
    .bind (.request trivial) fun x => .bind (.request trivial) fun flag =>
    .bind (.request trivial) fun zeroHandle => .bind (.request trivial) fun _ =>
    .bind (.request trivial) fun zero => .bind (.request trivial) fun _ =>
    .bind (.request trivial) fun isZero => ?_
  have hend : ∀ y, Asks Request.Compiled (do
      Procedure.setSignal start y
      Procedure.releaseChildren self) :=
    fun y => .bind (.request trivial) fun _ => .request trivial
  split
  · exact .bind (.request trivial) fun _ => .bind (.request trivial) fun _ =>
      .bind (.request trivial) fun _ => .bind (.request trivial) fun _ =>
      .bind ((sumSignals_asks ..).mono fun _ => Request.Still.compiled) hend
  · exact .bind (.pure isZero) hend

/-- A new child is put into the next slot, and named again. -/
theorem newChild_works {β : Type} {slot offset start : Nat} {t : TemplateId} {name : String}
    {p : Handle → Procedure β} {Q : β → Computation → Prop} (henter : enter.Tidy c₀.circuit)
    (h : c₀.AtWork self r slots c) (hvacant : VacantFrom slot slots)
    (hp : ∀ slots child c, c₀.AtWork self r slots c → VacantFrom (slot + 1) slots →
      slots[slot]? = some (some child) → Procedure.Yields enter (p child) c Q) :
    Procedure.Yields enter (do
      let id ← Procedure.handleAfter self offset
      Procedure.createChild self slot id t start name
      let id ← Procedure.child self slot
      p id) c Q := by
  refine h.ask trivial fun id c h => ?_
  refine .bind ((h.creates henter hvacant).mono fun _ c h => ?_)
  refine .bind (h.names.mono ?_)
  rintro child c ⟨hslot, h⟩
  exact hp _ child c h (hvacant.set _) hslot

/-- The gate is tidy whether or not it creates its second child, which goes into the second slot.
    -/
theorem gateBody_compiled : Body.Compiled gateBody := by
  refine ⟨gateBody_asks, ?_⟩
  rintro _ enter henter self c r rfl hon hr hvacant
  have h := Computation.AtWork.begin hr hvacant hon
  unfold gateBody
  refine h.ask trivial fun start c₁ h => ?_
  refine h.ask trivial fun name c₂ h => ?_
  refine h.ask trivial fun x c₃ h => ?_
  refine h.ask trivial fun flag c₄ h => ?_
  refine newChild_works henter h hvacant fun slots zero c₅ h hvacant hzero => ?_
  refine .bind ((h.writes henter hzero).mono fun _ c₆ h => ?_)
  refine h.ask trivial fun isZero c₇ h => ?_
  have hend : ∀ slots y c', c.AtWork self r slots c' → Procedure.Yields enter (do
      Procedure.setSignal start y
      Procedure.releaseChildren self) c' fun _ c' => c.Tidied self r c' := by
    intro slots y c' h
    exact h.ask trivial fun _ c'' h => h.releases
  split
  · refine newChild_works henter h hvacant fun slots n2b c₈ h _ hn2b => ?_
    refine .bind ((h.writes henter hn2b).mono fun _ c₉ h => ?_)
    exact .bind ((h.asks (sumSignals_asks ..)).mono fun y c' h => hend _ y c' h)
  · exact .bind (.pure (hend _ isZero c₇ h))

/-! ## The main component of the large circuit -/

/-- To copy inputs is to read signals and to write them to a child. -/
theorem copyInputs_asks (child : Handle) (count source l : Nat) :
    (copyInputs child count source l).Asks Request.Compiled := by
  induction count generalizing source l with
  | zero => exact .pure ()
  | succ count ih =>
    exact .bind (.request trivial) fun _ => .bind (.request trivial) fun _ => ih _ _

/-- The child that they are written to is one in a slot, as tidiness demands. -/
theorem copyInputs_works {child : Handle} {count source l slot : Nat}
    (henter : enter.Tidy c₀.circuit) (h : c₀.AtWork self r slots c)
    (hslot : slots[slot]? = some (some child)) :
    Procedure.Yields enter (copyInputs child count source l) c fun _ c' =>
      c₀.AtWork self r slots c' := by
  induction count generalizing source l c with
  | zero => exact .pure h
  | succ count ih =>
    exact h.ask trivial fun _ c h => .bind ((h.writes henter hslot).mono fun _ c h => ih h)

/-- The main body creates its three children, feeds two of them, and releases all. -/
theorem mainBody_asks (self : Handle) : (mainBody self).Asks Request.Compiled := by
  unfold mainBody
  exact .bind (.request trivial) fun start => .bind (.request trivial) fun name =>
    .bind (.request trivial) fun leaf => .bind (.request trivial) fun _ =>
    .bind (.request trivial) fun arrayHandle => .bind (.request trivial) fun _ =>
    .bind (.request trivial) fun array => .bind (copyInputs_asks ..) fun _ =>
    .bind (copyInputs_asks ..) fun _ =>
    .bind ((sumSignals_asks ..).mono fun _ => Request.Still.compiled) fun total =>
    .bind (.request trivial) fun _ => .bind (.request trivial) fun gateHandle =>
    .bind (.request trivial) fun _ => .bind (.request trivial) fun gate =>
    .bind (.request trivial) fun x => .bind (.request trivial) fun flag =>
    .bind (.request trivial) fun _ => .bind (.request trivial) fun _ =>
    .bind (.request trivial) fun dot => .bind (.request trivial) fun square =>
    .bind (.request trivial) fun y => .bind (.request trivial) fun _ =>
    .bind (.request trivial) fun seedValue => .bind (.request trivial) fun _ => .request trivial

/-- The three children go into the three slots in turn, and only the last two have inputs. -/
theorem mainBody_compiled : Body.Compiled mainBody := by
  refine ⟨mainBody_asks, ?_⟩
  rintro _ enter henter self c r rfl hon hr hvacant
  have h := Computation.AtWork.begin hr hvacant hon
  unfold mainBody
  refine h.ask trivial fun start c₁ h => ?_
  refine h.ask trivial fun name c₂ h => ?_
  refine h.ask trivial fun leaf c₃ h => ?_
  refine .bind ((h.creates henter hvacant).mono fun _ c₄ h => ?_)
  refine newChild_works henter h (hvacant.set _) fun slots array c₅ h hvacant harray => ?_
  refine .bind ((copyInputs_works henter h harray).mono fun _ c₆ h => ?_)
  refine .bind ((copyInputs_works henter h harray).mono fun _ c₇ h => ?_)
  refine .bind ((h.asks (sumSignals_asks ..)).mono fun total c₈ h => ?_)
  refine h.ask trivial fun _ c₉ h => ?_
  refine newChild_works henter h hvacant fun slots gate c₁₀ h _ hgate => ?_
  refine h.ask trivial fun x c₁₁ h => ?_
  refine h.ask trivial fun flag c₁₂ h => ?_
  refine .bind ((h.writes henter hgate).mono fun _ c₁₃ h => ?_)
  refine .bind ((h.writes henter hgate).mono fun _ c₁₄ h => ?_)
  refine h.ask trivial fun dot c₁₅ h => ?_
  refine h.ask trivial fun square c₁₆ h => ?_
  refine h.ask trivial fun y c₁₇ h => ?_
  refine h.ask trivial fun _ c₁₈ h => ?_
  refine h.ask trivial fun seedValue c₁₉ h => ?_
  exact h.ask trivial fun _ c₂₀ h => h.releases

end

/-! ## All of them -/

/-- Every sample body is compiled, for arrays of any width. -/
theorem compiled_templates (k : Nat) : ∀ e ∈ templates k, e.2.body.Compiled := by
  simp only [templates, List.forall_mem_cons, List.not_mem_nil, false_implies, implies_true,
    and_true]
  exact ⟨multiplierBody_compiled, constantLeafBody_compiled, num2BitsBody_compiled,
    isZeroBody_compiled, multiplierArrayBody_compiled k, gateBody_compiled, mainBody_compiled⟩

/-- Only an array may have more inputs than can be counted. -/
theorem inputs_templates {k : Nat} (hk : 2 * k < 2 ^ 32) :
    ∀ e ∈ templates k, e.2.shape.inputs < 2 ^ 32 := by
  simp only [templates, List.forall_mem_cons, List.not_mem_nil, false_implies, implies_true,
    and_true]
  exact ⟨by decide, by decide, by decide, by decide, hk, by decide, by decide⟩

namespace Runs

variable {circuit : Circuit} {k : Nat}

/-- So a circuit that runs them is compiled. -/
theorem compiled (h : Runs circuit k) : circuit.Compiled := by
  rintro body ⟨t, prefer, hbody⟩
  obtain ⟨e, he, rfl⟩ := Option.map_eq_some_iff.mp hbody
  obtain ⟨id, hmem⟩ := h.of_get? he
  rw [Template.chosen_eq (alternate_templates k _ hmem)]
  exact compiled_templates k _ hmem

/-- The counters of its shapes fit their words. -/
theorem countersFit (h : Runs circuit k) (hk : 2 * k < 2 ^ 32) : circuit.CountersFit := by
  intro t shape hshape
  obtain ⟨e, he, rfl⟩ := Option.map_eq_some_iff.mp hshape
  obtain ⟨id, hmem⟩ := h.of_get? he
  exact inputs_templates hk _ hmem

end Runs
end Sample
end CircuitWitness
