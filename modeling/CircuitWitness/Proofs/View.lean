import Mathlib.Data.List.FinRange
import CircuitWitness.Proofs.Effect
import CircuitWitness.Proofs.Store
/-
  What a computation shows to bodies.

  A body is told of signals and of the records of components, and changes those.  A `View` shows
  just that much: it leaves out the trace, the notes, the main inputs to come and which component
  is running, none of which decides what a request answers as long as no signal is read before it
  is written.

  A component owns a stretch of signals and the handles of its descendants, its `Region`.  What
  it does is said in two parts: nothing outside the region has changed (`View.Within`), and in the
  region some stretches of signals hold some values (`View.Holds`).
-/

namespace CircuitWitness

open CircuitWitness.Action

/-- What a computation shows to bodies. -/
@[ext] structure View where
  circuit : Circuit
  config : Config
  /-- The number of signals. -/
  size : Nat
  /-- The number of handles. -/
  capacity : Nat
  signals : Nat → Option Scalar
  records : Handle → Option Component

/-- The view of a computation: its signals and records as functions of their indices. -/
def Computation.view (c : Computation) : View :=
  { circuit := c.circuit
    config := c.config
    size := c.store.size
    capacity := c.registry.capacity
    signals := c.store.get?
    records := c.registry.get? }

namespace View

/-- Write a signal. -/
def write (w : View) (i : Nat) (v : Scalar) : View :=
  { w with signals := fun j => if i = j then some v else w.signals j }

/-- Put a record at a handle. -/
def put (w : View) (id : Handle) (r : Component) : View :=
  { w with records := fun h => if id = h then some r else w.records h }

variable (w : View) (i j : Nat) (v : Scalar) (id other : Handle) (r r' : Component)

/-- A write changes one signal and none of the other fields. -/
@[simp] theorem circuit_write : (w.write i v).circuit = w.circuit := rfl
@[simp] theorem config_write : (w.write i v).config = w.config := rfl
@[simp] theorem size_write : (w.write i v).size = w.size := rfl
@[simp] theorem capacity_write : (w.write i v).capacity = w.capacity := rfl
@[simp] theorem records_write : (w.write i v).records = w.records := rfl
@[simp] theorem signals_write :
    (w.write i v).signals j = if i = j then some v else w.signals j := rfl
/-- The signal that was written has its value. -/
theorem signals_write_self : (w.write i v).signals i = some v := if_pos rfl
/-- Every other signal has the value that it had. -/
theorem signals_write_ne (h : i ≠ j) : (w.write i v).signals j = w.signals j := if_neg h
/-- To put a record changes no field but the records. -/
@[simp] theorem circuit_put : (w.put id r).circuit = w.circuit := rfl
@[simp] theorem config_put : (w.put id r).config = w.config := rfl
@[simp] theorem size_put : (w.put id r).size = w.size := rfl
@[simp] theorem capacity_put : (w.put id r).capacity = w.capacity := rfl
@[simp] theorem signals_put : (w.put id r).signals = w.signals := rfl
@[simp] theorem records_put :
    (w.put id r).records other = if id = other then some r else w.records other := rfl

/-- The record that was put is found. -/
theorem records_put_self : (w.put id r).records id = some r := if_pos rfl
/-- Every other record is found as before. -/
theorem records_put_ne (h : id ≠ other) : (w.put id r).records other = w.records other := if_neg h

/-- Of two records put at one handle, the later one counts. -/
@[simp] theorem put_put : (w.put id r).put id r' = w.put id r' := by
  unfold put
  congr 1
  funext h
  simp only
  split <;> rfl

/-- The witness that a view shows. -/
def witness : List Scalar :=
  if w.circuit.witness.isEmpty then (List.range w.size).map fun i => (w.signals i).getD 0
  else w.circuit.witness.map fun i => (w.signals i).getD 0

/-- The witness is made of signals, so no record changes it. -/
@[simp] theorem witness_put : (w.put id r).witness = w.witness := rfl

end View

/-! ## The view of a changed computation -/

namespace Computation

variable {c : Computation} {id parent : Handle} {r : Component} {i n : Nat} {v : Scalar}

/-- The changes of a computation, as its view shows them: to write a signal, with its event, is a
    write. -/
theorem view_wrote (h : i < c.store.size) : (c.wrote i v).view = c.view.write i v := by
  refine View.ext rfl rfl (SignalStore.size_write ..) rfl (funext fun j => ?_) rfl
  show (c.store.write i v).get? j = _
  rw [SignalStore.get?_write, if_pos h]
  rfl

/-- To change a record is to put the changed one. -/
theorem view_modified (h : c.registry.get? id = some r) (f : Component → Component) :
    (c.modified id f).view = c.view.put id (f r) := by
  refine View.ext rfl rfl rfl (Registry.capacity_modify ..) rfl (funext fun other => ?_)
  exact Registry.sets_modify h f other

/-- An input has arrived. -/
theorem view_arrived (h : c.registry.get? id = some r) :
    (c.arrived id i n).view = c.view.put id { r with pending := n } :=
  view_modified h _

/-- A body has begun. -/
theorem view_begun (h : c.registry.get? id = some r) :
    (c.begun id).view = c.view.put id { r with stage := .running } :=
  view_modified h _

/-- A body has ended; who runs now is not in view. -/
theorem view_ended (h : c.registry.get? id = some r) (caller : Option Handle) :
    (c.ended id caller).view = c.view.put id { r with stage := .finished } :=
  view_modified (c := c.left caller) h _

/-- A parent keeps a handle. -/
theorem view_kept (h : c.registry.get? parent = some r) (slot : Nat) (child : Handle) :
    (c.kept parent slot child).view
      = c.view.put parent { r with slots := r.slots.setIfInBounds slot (some child) } :=
  view_modified h _

/-- A component is released; whether it keeps its slots is a matter of configuration. -/
theorem view_dropped (h : c.registry.get? id = some r) :
    (c.dropped id).view = c.view.put id
      { r with slots := if c.config.reclaim then #[] else r.slots, stage := .released } :=
  view_modified h _

/-- A component is entered. -/
theorem view_enrolled {reg : Registry} {t : TemplateId} (h : c.registry.create id r = .ok reg) :
    (c.enrolled reg id t).view = c.view.put id r := by
  obtain ⟨-, -, hcapacity, hsets⟩ := Registry.create_ok h
  exact View.ext rfl rfl rfl hcapacity rfl (funext hsets)

/-- A read answers nothing outside the store, and zero for a signal without a value. -/
theorem read?_getD (s : SignalStore) (i : Nat) : (s.read? i).getD 0 = (s.get? i).getD 0 := by
  unfold SignalStore.read? SignalStore.get?
  rcases s.slots[i]? with _ | _ | v <;> rfl

/-- The witness can be read off the view. -/
theorem witness_eq (c : Computation) : c.witness = c.view.witness := by
  unfold witness View.witness
  rw [SignalStore.values_eq]
  simp only [read?_getD]
  rfl

end Computation

/-! ## Views that differ in a region -/

/-- A stretch of signals and a stretch of handles. -/
structure Region where
  start : Nat
  signals : Nat
  first : Nat
  components : Nat

/-- One region lies in another: what is outside this one is outside that one. -/
structure Region.Inside (R S : Region) : Prop where
  signals : ∀ i, i < S.start ∨ S.start + S.signals ≤ i → i < R.start ∨ R.start + R.signals ≤ i
  handles : ∀ i, i < S.first ∨ S.first + S.components ≤ i →
    i < R.first ∨ R.first + R.components ≤ i

namespace View

/-- Two views differ in a region at most. -/
structure Within (R : Region) (w w' : View) : Prop where
  circuit : w'.circuit = w.circuit
  config : w'.config = w.config
  size : w'.size = w.size
  capacity : w'.capacity = w.capacity
  signals : ∀ i, i < R.start ∨ R.start + R.signals ≤ i → w'.signals i = w.signals i
  records : ∀ id : Handle, id.index < R.first ∨ R.first + R.components ≤ id.index →
    w'.records id = w.records id

variable {R S : Region} {w w' w'' : View} {i j : Nat} {v : Scalar} {id : Handle} {r : Component}
  {l l' : List Scalar}

namespace Within

/-- The laws of `Within`: nothing has changed. -/
theorem refl (R : Region) (w : View) : Within R w w :=
  ⟨rfl, rfl, rfl, rfl, fun _ _ => rfl, fun _ _ => rfl⟩

/-- One stretch of changes after another. -/
theorem trans (h : Within R w w') (h' : Within R w' w'') : Within R w w'' where
  circuit := h'.circuit.trans h.circuit
  config := h'.config.trans h.config
  size := h'.size.trans h.size
  capacity := h'.capacity.trans h.capacity
  signals i hi := (h'.signals i hi).trans (h.signals i hi)
  records id hid := (h'.records id hid).trans (h.records id hid)

/-- What stays within a region stays within any larger one. -/
theorem mono (h : Within R w w') (hR : R.Inside S) : Within S w w' :=
  { h with
    signals := fun i hi => h.signals i (hR.signals i hi)
    records := fun id hid => h.records id (hR.handles id.index hid) }

/-- One more write inside of the region. -/
theorem write (h : Within R w w') (v : Scalar) (hi : R.start ≤ i ∧ i < R.start + R.signals) :
    Within R w (w'.write i v) :=
  { h with
    signals := fun j hj => by
      rw [signals_write, if_neg (by omega)]
      exact h.signals j hj }

/-- A record of the region may be put before. -/
theorem of_put (h : Within R (w.put id r) w') (hR : R.Inside S)
    (hid : S.first ≤ id.index ∧ id.index < S.first + S.components) : Within S w w' where
  circuit := h.circuit
  config := h.config
  size := h.size
  capacity := h.capacity
  signals i hi := h.signals i (hR.signals i hi)
  records other hother := by
    rw [h.records other (hR.handles other.index hother), records_put, if_neg (by rintro rfl; omega)]

/-- One more record put inside of the region. -/
theorem put (h : Within R w w') (r : Component)
    (hid : R.first ≤ id.index ∧ id.index < R.first + R.components) : Within R w (w'.put id r) :=
  { h with
    records := fun other hother => by
      rw [records_put, if_neg (by rintro rfl; omega)]
      exact h.records other hother }

end Within

/-! ## Stretches of signals -/

/-- Signals that follow one another hold some values. -/
def Holds (w : View) : Nat → List Scalar → Prop
  | _, [] => True
  | i, v :: rest => w.signals i = some v ∧ w.Holds (i + 1) rest

/-- A stretch holds a list if each of its signals holds the element. -/
theorem holds_iff : w.Holds i l ↔ ∀ j v, l[j]? = some v → w.signals (i + j) = some v := by
  induction l generalizing i with
  | nil => simp [Holds]
  | cons v rest ih =>
    unfold Holds
    rw [ih]
    constructor
    · rintro ⟨hhead, htail⟩ (_ | j) u hu
      · simpa using hu ▸ hhead
      · rw [← Nat.add_assoc, Nat.add_right_comm]
        exact htail j u (by simpa using hu)
    · intro h
      refine ⟨h 0 v rfl, fun j u hu => ?_⟩
      rw [Nat.add_right_comm, Nat.add_assoc]
      exact h (j + 1) u (by simpa using hu)

/-- A list in two parts lies in two stretches, one behind the other. -/
theorem holds_append :
    w.Holds i (l ++ l') ↔ w.Holds i l ∧ w.Holds (i + l.length) l' := by
  induction l generalizing i with
  | nil => simp [Holds]
  | cons v rest ih =>
    simp only [List.cons_append, Holds, ih, List.length_cons, and_assoc]
    rw [Nat.add_right_comm, Nat.add_assoc]

/-- A stretch holds a tabulated list if each of its signals holds the value of the function. -/
theorem holds_ofFn {k : Nat} {f : Fin k → Scalar} :
    w.Holds i (List.ofFn f) ↔ ∀ j : Fin k, w.signals (i + j) = some (f j) := by
  rw [holds_iff]
  constructor
  · intro h j
    exact h j (f j) (by simp)
  · intro h j v hv
    rw [List.getElem?_ofFn] at hv
    split at hv
    · rename_i hj
      cases hv
      exact h ⟨j, hj⟩
    · cases hv

/-- Stretches of one length, one after another. -/
theorem holds_flatMap {k n : Nat} {f : Fin k → List Scalar} (hf : ∀ j, (f j).length = n) :
    w.Holds i ((List.finRange k).flatMap f) ↔ ∀ j : Fin k, w.Holds (i + n * j) (f j) := by
  induction k generalizing i with
  | zero => simp [Holds]
  | succ k ih =>
    rw [List.finRange_succ, List.flatMap_cons, List.flatMap_map, holds_append, hf 0,
      ih fun j => hf j.succ, Fin.forall_fin_succ]
    have hplace : ∀ j : Fin k, i + n + n * (j : Nat) = i + n * (j.succ : Nat) := by
      intro j
      rw [Fin.val_succ, Nat.mul_succ]
      omega
    simp only [hplace]
    rfl

/-- No record changes what signals hold. -/
@[simp] theorem holds_put : (w.put id r).Holds i l ↔ w.Holds i l := by
  rw [holds_iff, holds_iff, signals_put]

/-- What signals hold depends on the signals alone. -/
theorem Holds.congr (h : w.Holds i l) (hsignals : w'.signals = w.signals) : w'.Holds i l := by
  rw [holds_iff] at h ⊢
  rwa [hsignals]

/-- Signals outside a region hold what they held. -/
theorem Within.holds (h : Within R w w') (hl : w.Holds i l)
    (hout : i + l.length ≤ R.start ∨ R.start + R.signals ≤ i) : w'.Holds i l := by
  rw [holds_iff] at hl ⊢
  intro j v hv
  have hj := (List.getElem?_eq_some_iff.mp hv).1
  rw [h.signals _ (by omega)]
  exact hl j v hv

/-- A record may be put before. -/
theorem Within.holds_of_put (h : Within R (w.put id r) w') (hl : w.Holds i l)
    (hout : i + l.length ≤ R.start ∨ R.start + R.signals ≤ i) : w'.Holds i l :=
  h.holds (holds_put.mpr hl) hout

/-- Signals that hold values are read back. -/
theorem Holds.map_signals (h : w.Holds i l) :
    (List.range' i l.length).map (fun j => (w.signals j).getD 0) = l := by
  induction l generalizing i with
  | nil => rfl
  | cons v rest ih =>
    rw [List.length_cons, List.range'_succ, List.map_cons, ih h.2, h.1]
    rfl

/-- When all signals hold a value, these are the witness. -/
theorem Holds.witness_eq (h : w.Holds 0 l) (hall : w.circuit.witness = [])
    (hlength : l.length = w.size) : w.witness = l := by
  unfold witness
  rw [hall, List.isEmpty_nil, if_pos rfl, List.range_eq_range', ← hlength]
  exact h.map_signals

/-- The first signals and one more, if these are named, are the witness. -/
theorem Holds.witness_concat {n : Nat} (h : w.Holds 0 l) (hi : w.signals i = some v)
    (hnamed : w.circuit.witness = List.range n ++ [i]) (hlength : l.length = n) :
    w.witness = l ++ [v] := by
  unfold witness
  rw [hnamed, if_neg (by simp), List.map_append, List.range_eq_range', ← hlength, h.map_signals]
  simp [hi]

-- From here on, views are compared by the laws above; to unfold a row of changes is slow.
attribute [irreducible] write put

end View
end CircuitWitness
