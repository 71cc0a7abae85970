import CircuitWitness.Scalar.Basic
/-
  The signal store: one slot for every signal of the circuit, for a whole computation.

  A slot holds nothing until it is written, and what is written first or later stays readable.
  An unwritten slot reads as zero.  Indices outside the store are the caller's mistake: reading
  answers nothing there, and writing leaves the store as it was.
-/

namespace CircuitWitness

/-- The values of all signals, by global index. -/
structure SignalStore where
  slots : Array (Option Scalar)
deriving DecidableEq, Inhabited

namespace SignalStore

/-- A store of `size` unwritten slots. -/
def allocate (size : Nat) : SignalStore := ⟨Array.replicate size none⟩

/-- The number of slots. -/
def size (s : SignalStore) : Nat := s.slots.size

/-- The value of a signal; zero if it was never written, nothing if there is no such signal. -/
def read? (s : SignalStore) (i : Nat) : Option Scalar :=
  s.slots[i]?.map fun slot => slot.getD 0

/-- Whether a signal was written; nothing if there is no such signal. -/
def isWritten? (s : SignalStore) (i : Nat) : Option Bool := s.slots[i]?.map Option.isSome

/-- Put a value into a slot of the store. -/
def write (s : SignalStore) (i : Nat) (v : Scalar) : SignalStore :=
  ⟨s.slots.setIfInBounds i (some v)⟩

/-- How many slots were written. -/
def writtenCount (s : SignalStore) : Nat := s.slots.countP Option.isSome

/-- The value of every signal, in order. -/
def values (s : SignalStore) : List Scalar := s.slots.toList.map fun slot => slot.getD 0

/-! ## Small laws -/

@[simp] theorem size_allocate (n : Nat) : (allocate n).size = n := by simp [allocate, size]

@[simp] theorem size_write (s : SignalStore) (i : Nat) (v : Scalar) :
    (s.write i v).size = s.size := by simp [write, size]

/-- Reading the slot just written gives the value back; every other slot is as before. -/
theorem read?_write (s : SignalStore) (i j : Nat) (v : Scalar) :
    (s.write i v).read? j = if i = j then (if i < s.size then some v else none) else s.read? j := by
  simp only [write, read?, size, Array.getElem?_setIfInBounds]
  by_cases h : i = j
  · subst h; by_cases hi : i < s.slots.size <;> simp [hi]
  · simp [h]

/-- The slot just written is marked, and the other marks are as before. -/
theorem isWritten?_write (s : SignalStore) (i j : Nat) (v : Scalar) :
    (s.write i v).isWritten? j
      = if i = j then (if i < s.size then some true else none) else s.isWritten? j := by
  simp only [write, isWritten?, size, Array.getElem?_setIfInBounds]
  by_cases h : i = j
  · subst h; by_cases hi : i < s.slots.size <;> simp [hi]
  · simp [h]

end SignalStore
end CircuitWitness
