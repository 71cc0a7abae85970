import Mathlib.Data.List.Perm.Basic
import CircuitWitness.SignalStore
/-
  Signals with and without a value.

  A value is never taken away, so all that a write can do to a block is to leave one fewer of its
  signals without a value.

  Two writes to different signals may change places.  So when each signal of a block has just one
  value to be given, the order in which the block is written does not matter.
-/

namespace CircuitWitness.SignalStore

variable {s s' : SignalStore} {start size i : Nat} {v : Scalar}

/-- How many signals of a block have no value. -/
def missing (s : SignalStore) (start size : Nat) : Nat :=
  (List.range' start size).countP fun i => s.isWritten? i != some true

/-- What has a value in one store has one in the other. -/
def Grows (s s' : SignalStore) : Prop :=
  ∀ i, s.isWritten? i = some true → s'.isWritten? i = some true

/-- Nothing is lost where nothing is written. -/
theorem Grows.refl (s : SignalStore) : s.Grows s := fun _ h => h

/-- A look that finds something is inside of the store. -/
theorem lt_of_isWritten? {w : Bool} (h : s.isWritten? i = some w) : i < s.size := by
  obtain ⟨slot, hslot, -⟩ := Option.map_eq_some_iff.mp h
  exact (Array.getElem?_eq_some_iff.mp hslot).1

/-- Every signal of a store has a value or has none. -/
theorem isWritten?_of_lt (h : i < s.size) : ∃ w, s.isWritten? i = some w := by
  unfold isWritten?
  rw [Array.getElem?_eq_getElem h]
  exact ⟨_, rfl⟩

/-- A store begins without values. -/
theorem isWritten?_allocate_ne (n i : Nat) : (allocate n).isWritten? i ≠ some true := by
  simp only [allocate, isWritten?, Array.getElem?_replicate]
  split <;> simp

/-- What was written has a value. -/
theorem isWritten?_write_self {w : Bool} (h : s.isWritten? i = some w) :
    (s.write i v).isWritten? i = some true := by
  rw [isWritten?_write, if_pos rfl, if_pos (lt_of_isWritten? h)]

/-- Nothing loses its value by a write. -/
theorem grows_write (s : SignalStore) (i : Nat) (v : Scalar) : s.Grows (s.write i v) := by
  intro j hj
  rw [isWritten?_write]
  by_cases he : i = j
  · subst he
    rw [if_pos rfl, if_pos (lt_of_isWritten? hj)]
  · rw [if_neg he, hj]

/-- No more values are missing than there are signals in a block. -/
theorem missing_le (s : SignalStore) (start size : Nat) : s.missing start size ≤ size := by
  have hle := List.countP_le_length (p := fun i => s.isWritten? i != some true)
    (l := List.range' start size)
  rw [List.length_range'] at hle
  exact hle

/-- Fewer are missing as the store grows. -/
theorem Grows.missing_le (h : s.Grows s') (start size : Nat) :
    s'.missing start size ≤ s.missing start size := by
  refine List.countP_mono_left fun i _ hi => ?_
  simp only [bne_iff_ne, ne_eq] at hi ⊢
  exact fun hw => hi (h i hw)

/-- Nothing is missing if the whole block is written. -/
theorem missing_eq_zero : s.missing start size = 0 ↔
    ∀ i ∈ List.range' start size, s.isWritten? i = some true := by
  unfold missing
  rw [List.countP_eq_zero]
  simp

/-- Giving a missing signal its value leaves one fewer missing. -/
theorem missing_write (hi : i ∈ List.range' start size) (hw : s.isWritten? i = some false) :
    (s.write i v).missing start size + 1 ≤ s.missing start size := by
  obtain ⟨front, back, hsplit⟩ := List.append_of_mem hi
  have hmono : ∀ l : List Nat, l.countP (fun j => (s.write i v).isWritten? j != some true)
      ≤ l.countP fun j => s.isWritten? j != some true := by
    intro l
    refine List.countP_mono_left fun j _ hj => ?_
    simp only [bne_iff_ne, ne_eq] at hj ⊢
    exact fun h => hj (grows_write s i v j h)
  have hfront := hmono front
  have hback := hmono back
  unfold missing
  rw [hsplit, List.countP_append, List.countP_append, List.countP_cons, List.countP_cons,
    isWritten?_write_self hw, hw]
  simp only [bne_self_eq_false, Bool.false_eq_true, if_false]
  have hmiss : ((some false != some true) = true) := rfl
  rw [if_pos hmiss]
  omega

/-! ## The order of writes -/

/-- Writes to different signals may change places. -/
theorem write_comm {j : Nat} (s : SignalStore) (v w : Scalar) (h : i ≠ j) :
    (s.write i v).write j w = (s.write j w).write i v := by
  simp only [write]
  rw [Array.setIfInBounds_comm (some v) (some w) h]

/-- Write some signals of a block, each with the value that is meant for it. -/
def writeAll (s : SignalStore) (start : Nat) (values : Nat → Scalar) (offsets : List Nat) :
    SignalStore :=
  offsets.foldl (fun s l => s.write (start + l) (values l)) s

variable {values : Nat → Scalar} {offsets offsets' : List Nat}

/-- The last of the writes comes on top of the others. -/
theorem writeAll_concat (s : SignalStore) (start : Nat) (values : Nat → Scalar)
    (offsets : List Nat) (l : Nat) : s.writeAll start values (offsets ++ [l])
      = (s.writeAll start values offsets).write (start + l) (values l) := by
  simp [writeAll]

@[simp] theorem size_writeAll : (s.writeAll start values offsets).size = s.size := by
  unfold writeAll
  induction offsets generalizing s with
  | nil => rfl
  | cons l rest ih => rw [List.foldl_cons, ih, size_write]

/-- **Whatever the order of the writes, the store comes out the same.** -/
theorem writeAll_perm (h : offsets.Perm offsets') :
    s.writeAll start values offsets = s.writeAll start values offsets' := by
  refine h.foldl_eq' (fun l _ l' _ s => ?_) s
  by_cases hl : l = l'
  · rw [hl]
  · exact write_comm s _ _ (by omega)

/-! ## What a signal holds -/

/-- The value that a signal was given, if it was given one. -/
def get? (s : SignalStore) (i : Nat) : Option Scalar := s.slots[i]?.join

/-- A write inside of the store changes one signal; outside of it, it changes nothing. -/
theorem get?_write (s : SignalStore) (i j : Nat) (v : Scalar) : (s.write i v).get? j
    = if i = j then (if i < s.size then some v else none) else s.get? j := by
  simp only [write, get?, size, Array.getElem?_setIfInBounds]
  by_cases h : i = j
  · subst h
    by_cases hi : i < s.slots.size <;> simp [hi]
  · simp [h]

theorem get?_write_self (v : Scalar) (h : i < s.size) : (s.write i v).get? i = some v := by
  rw [get?_write, if_pos rfl, if_pos h]

theorem get?_write_ne {j : Nat} (v : Scalar) (h : i ≠ j) : (s.write i v).get? j = s.get? j := by
  rw [get?_write, if_neg h]

/-- A signal holds a value if it is marked as written and reads as that value. -/
theorem get?_eq_some : s.get? i = some v ↔ s.isWritten? i = some true ∧ s.read? i = some v := by
  unfold get? isWritten? read?
  rcases s.slots[i]? with _ | _ | w <;> simp

/-- A signal without a value is one that was not written. -/
theorem get?_eq_none : s.get? i = none ↔ s.isWritten? i ≠ some true := by
  unfold get? isWritten?
  rcases s.slots[i]? with _ | _ | w <;> simp

/-- In stores of one size, signals that hold the same have the same slot. -/
theorem slot_congr (hsize : s.size = s'.size) (h : s.get? i = s'.get? i) :
    s.slots[i]? = s'.slots[i]? := by
  unfold get? at h
  unfold size at hsize
  by_cases hi : i < s.slots.size
  · simpa [hi, hsize ▸ hi] using h
  · rw [Array.getElem?_eq_none (by omega), Array.getElem?_eq_none (by omega)]

/-- Two stores of one size that hold the same values are the same store. -/
theorem ext_get? (hsize : s.size = s'.size) (h : ∀ i, s.get? i = s'.get? i) : s = s' := by
  obtain ⟨slots⟩ := s
  obtain ⟨slots'⟩ := s'
  congr 1
  exact Array.ext_getElem? fun i => slot_congr hsize (h i)

/-- Write values to signals that follow one another. -/
def writeFrom (s : SignalStore) (start : Nat) : List Scalar → SignalStore
  | [] => s
  | v :: rest => (s.write start v).writeFrom (start + 1) rest

@[simp] theorem size_writeFrom (vs : List Scalar) : (s.writeFrom start vs).size = s.size := by
  induction vs generalizing s start with
  | nil => rfl
  | cons v rest ih => exact ih.trans (size_write s start v)

/-- The signals written hold their values, and the others are as before. -/
theorem get?_writeFrom {vs : List Scalar} (h : start + vs.length ≤ s.size) (i : Nat) :
    (s.writeFrom start vs).get? i
      = if start ≤ i ∧ i < start + vs.length then vs[i - start]? else s.get? i := by
  induction vs generalizing s start with
  | nil => rw [if_neg (by simp)]; rfl
  | cons v rest ih =>
    rw [List.length_cons] at h ⊢
    have hrest := @ih (s.write start v) (start + 1) (by rw [size_write]; omega)
    refine hrest.trans ?_
    by_cases hi : start = i
    · subst hi
      rw [if_neg (by omega), if_pos (by omega), get?_write_self v (by omega), Nat.sub_self]
      rfl
    · rw [get?_write_ne v hi]
      by_cases hin : start + 1 ≤ i ∧ i < start + 1 + rest.length
      · rw [if_pos hin, if_pos (by omega), show i - start = i - (start + 1) + 1 by omega]
        rfl
      · rw [if_neg hin, if_neg (by omega)]

/-- The values of a store are what its signals hold, with zero for the others. -/
theorem values_eq (s : SignalStore) :
    s.values = (List.range s.size).map fun i => (s.get? i).getD 0 := by
  refine List.ext_getElem? fun i => ?_
  unfold values get? size
  by_cases hi : i < s.slots.size
  · simp [hi]
  · simp [hi]

end CircuitWitness.SignalStore
