import CircuitWitness.Proofs.InputBlock
import CircuitWitness.Proofs.Missing
/-
  Extracting the witness.

  There are two accessors with two branches each, and neither looks whether an index is in the
  store.  That none is missed rests on two facts from opposite ends: when a circuit is accepted its
  witness entries are compared with the number of signals it declares, and the store has just that
  many slots, at the start and after every step.

  What the slots hold is told by the log of a run, the writes that happened on the way.  Nothing
  but a write touches the store, so the values are those that one gets by writing them down again,
  from the first to the last, over a row of zeros (`SignalStore.Shows`); and a slot is marked just
  if the log names it.
-/

namespace CircuitWitness

open CircuitWitness.Action

variable {α β : Type} {π : Policy} {c : Computation} {m m' : Moment}

/-! ## Logs -/

/-- A signal, and the value that it is given. -/
structure Write where
  signal : Nat
  value : Scalar
deriving DecidableEq

/-- A path, with the writes to the store that happened on it, in order. -/
inductive Log (π : Policy) (m : Moment) : List Write → Moment → Prop
  | refl : Log π m [] m
  /-- A signal is given a value. -/
  | writes {l : List Write} {m₁ m₂ : Moment} {i : Nat} {v : Scalar} {w : Bool}
      (h : Log π m l m₁) (hs : Step π m₁ m₂) (hw : m₁.state.store.isWritten? i = some w)
      (hstore : m₂.state.store = m₁.state.store.write i v) : Log π m (l ++ [⟨i, v⟩]) m₂
  /-- Something else happens. -/
  | goes {l : List Write} {m₁ m₂ : Moment} (h : Log π m l m₁) (hs : Step π m₁ m₂)
      (hsame : m₂.state.store = m₁.state.store) : Log π m l m₂

/-- A step writes one signal or none. -/
theorem Step.writes_or_same (h : Step π m m') :
    (∃ i v w, m.state.store.isWritten? i = some w ∧
      m'.state.store = m.state.store.write i v) ∨
    m'.state.store = m.state.store := by
  cases h with
  | write hw => exact .inl ⟨_, _, _, hw, rfl⟩
  | input _ _ hw => exact .inl ⟨_, _, _, hw, rfl⟩
  | inputRun _ _ hw => exact .inl ⟨_, _, _, hw, rfl⟩
  | assign _ hw => exact .inl ⟨_, _, _, hw, rfl⟩
  | _ => exact .inr rfl

/-- Every path has a log. -/
theorem Path.log (h : Path π m m') : ∃ l, Log π m l m' := by
  induction h with
  | refl => exact ⟨[], .refl⟩
  | tail _ hs ih =>
    obtain ⟨l, hl⟩ := ih
    rcases hs.writes_or_same with ⟨i, v, w, hw, hstore⟩ | hsame
    · exact ⟨_, hl.writes hs hw hstore⟩
    · exact ⟨l, hl.goes hs hsame⟩

/-! ## What a log says about the store -/

/-- Write values down in a row, one after another. -/
def replay (l : List Write) (row : List Scalar) : List Scalar :=
  l.foldl (fun row w => row.set w.signal w.value) row

/-- What is not written stays. -/
theorem getElem?_replay {l : List Write} {i : Nat} (hi : i ∉ l.map Write.signal)
    (row : List Scalar) : (replay l row)[i]? = row[i]? := by
  induction l generalizing row with
  | nil => rfl
  | cons w l ih =>
    rw [List.map_cons, List.mem_cons, not_or] at hi
    show (replay l (row.set w.signal w.value))[i]? = _
    rw [ih hi.2, List.getElem?_set_ne fun he => hi.1 he.symm]

namespace SignalStore

variable {s : SignalStore} {n i : Nat} {l : List Write}

/-- The list of all values agrees with single reads. -/
theorem getElem?_values (s : SignalStore) (i : Nat) : s.values[i]? = s.read? i := by
  unfold values read?
  rw [List.getElem?_map, Array.getElem?_toList]

theorem values_write (s : SignalStore) (i : Nat) (v : Scalar) :
    (s.write i v).values = s.values.set i v := by
  unfold values write
  rw [Array.toList_setIfInBounds, List.map_set]
  rfl

/-- A store of so many slots looks as if some writes had been made, over zeros and without marks. -/
structure Shows (s : SignalStore) (n : Nat) (l : List Write) : Prop where
  size : s.size = n
  values : s.values = replay l (List.replicate n 0)
  marks : ∀ i, s.isWritten? i = some true ↔ i < n ∧ i ∈ l.map Write.signal

theorem Shows.allocate (n : Nat) : (SignalStore.allocate n).Shows n [] where
  size := size_allocate n
  values := by
    unfold SignalStore.values SignalStore.allocate
    rw [Array.toList_replicate, List.map_replicate]
    rfl
  marks i := by simp [isWritten?_allocate_ne]

/-- One more write. -/
theorem Shows.write (h : s.Shows n l) (i : Nat) (v : Scalar) :
    (s.write i v).Shows n (l ++ [⟨i, v⟩]) where
  size := (size_write s i v).trans h.size
  values := by
    unfold replay
    rw [values_write, h.values, List.foldl_append]
    rfl
  marks j := by
    rw [isWritten?_write, h.size, List.map_append, List.mem_append, List.map_singleton,
      List.mem_singleton]
    by_cases he : i = j
    · subst he
      by_cases hi : i < n <;> simp [hi]
    · rw [if_neg he, h.marks]
      simp [Ne.symm he]

/-- A slot that was never written is not marked and holds zero. -/
theorem Shows.unwritten (h : s.Shows n l) (hi : i < n) (hno : i ∉ l.map Write.signal) :
    s.isWritten? i = some false ∧ s.read? i = some 0 := by
  constructor
  · obtain ⟨w, hw⟩ := isWritten?_of_lt (h.size.symm ▸ hi)
    cases w with
    | false => exact hw
    | true => exact absurd ((h.marks i).mp hw).2 hno
  · rw [← getElem?_values, h.values, getElem?_replay hno, List.getElem?_replicate, if_pos hi]

end SignalStore

/-- What the log of a path names is added to what the store showed. -/
theorem Log.shows {l₀ l : List Write} {n : Nat} (h : Log π m l m')
    (hm : m.state.store.Shows n l₀) : m'.state.store.Shows n (l₀ ++ l) := by
  induction h with
  | refl => rwa [List.append_nil]
  | @writes l m₁ m₂ i v w _ _ _ hstore ih =>
    rw [hstore, ← List.append_assoc]
    exact ih.write i v
  | goes _ _ hsame ih =>
    rw [hsame]
    exact ih

/-- At the start signal 0 was given the value one. -/
theorem Moment.shows_start (circuit : Circuit) (config : Config) :
    (Moment.start circuit config).state.store.Shows circuit.totalSignals [⟨0, 1⟩] :=
  (SignalStore.Shows.allocate circuit.totalSignals).write 0 1

/-! ## The witness -/

/-- A witness entry of an accepted circuit stands for a signal of the store. -/
theorem CircuitDescription.witnessSignal_of_accept {d : CircuitDescription} {circuit : Circuit}
    (hd : d.accept = .ok circuit) {i : Nat} (hi : i < circuit.witnessLength) :
    ∃ signal, circuit.witnessSignal? i = some signal ∧ signal < circuit.totalSignals := by
  obtain ⟨hdesc, -, hcheck⟩ := of_accept hd
  have hentries : ∀ signal ∈ circuit.witness, signal < circuit.totalSignals :=
    hdesc ▸ (room_of_check hcheck).2
  unfold Circuit.witnessLength at hi
  unfold Circuit.witnessSignal?
  split at hi
  · rename_i hempty
    exact ⟨i, if_pos hempty, hi⟩
  · rename_i hnamed
    refine ⟨circuit.witness[i], ?_, hentries _ (List.getElem_mem hi)⟩
    rw [if_neg hnamed, List.getElem?_eq_getElem hi]

namespace Computation

/-- The whole witness has as many entries as the circuit says. -/
theorem length_witness (hsize : c.store.size = c.circuit.totalSignals) :
    c.witness.length = c.circuit.witnessLength := by
  unfold witness Circuit.witnessLength
  split
  · rw [← hsize]
    unfold SignalStore.values SignalStore.size
    simp
  · rw [List.length_map]

/-- **Both accessors give the value of the signal that the entry stands for.** -/
theorem witness_entry {i signal : Nat} (hsignal : c.circuit.witnessSignal? i = some signal)
    (hin : signal < c.store.size) :
    ∃ v, c.store.read? signal = some v ∧ c.witness? i = some v ∧ c.witness[i]? = some v := by
  obtain ⟨v, hv⟩ : ∃ v, c.store.read? signal = some v := by
    unfold SignalStore.read?
    rw [Array.getElem?_eq_getElem hin]
    exact ⟨_, rfl⟩
  refine ⟨v, hv, ?_, ?_⟩
  · unfold witness?
    rw [hsignal]
    exact hv
  · unfold Circuit.witnessSignal? at hsignal
    unfold witness
    split at hsignal
    · rename_i hempty
      cases hsignal
      rw [if_pos hempty, SignalStore.getElem?_values, hv]
    · rename_i hnamed
      rw [if_neg hnamed, List.getElem?_map, hsignal, Option.map_some, hv]
      rfl

/-- Beyond the witness there is no entry. -/
theorem witness?_eq_none (hsize : c.store.size = c.circuit.totalSignals) {i : Nat}
    (hi : c.circuit.witnessLength ≤ i) : c.witness? i = none := by
  unfold Circuit.witnessLength at hi
  unfold witness? Circuit.witnessSignal?
  split at hi
  · rename_i hempty
    rw [if_pos hempty, Option.bind_some, ← SignalStore.getElem?_values,
      List.getElem?_eq_none]
    unfold SignalStore.values SignalStore.size at *
    simpa using hsize ▸ hi
  · rename_i hnamed
    rw [if_neg hnamed, List.getElem?_eq_none hi]
    rfl

/-- As numbers, the entries are canonical. -/
theorem witnessNumbers_canonical (c : Computation) :
    (∀ n ∈ c.witnessNumbers, n < Scalar.modulus) ∧
      c.witnessNumbers.map Scalar.ofNat = c.witness := by
  unfold witnessNumbers
  constructor
  · intro n hn
    obtain ⟨v, -, rfl⟩ := List.mem_map.mp hn
    exact v.lt_modulus
  · rw [List.map_map]
    exact (List.map_congr_left fun v _ => Scalar.ofNat_val v).trans (List.map_id _)

end Computation

/-! ## The theorem -/

/-- **Extracting the witness is total and consistent.**  Take an accepted circuit, any moment of any
    run on it, and any moment that a program comes to from there.

    * The store has as many slots as the circuit declares signals, and a slot that is marked as
      written stays marked.
    * The run has a log.  Written down over a row of zeros, the one in front, it gives the values of
      the store; a slot is marked just if it is written in the log, and one that is not holds zero.
    * Every entry of the witness stands for a signal of the store, both accessors give the value of
      that signal, and looking changes nothing.  Beyond the length there is no entry.
    * The length is what the circuit says, and the whole witness has it.  As numbers, its entries
      are below the modulus and give back the scalars. -/
theorem Program.Visits.witness_total {levels below : Nat} {p : Program α} {p' : Program β}
    {d : CircuitDescription} {circuit : Circuit} {config : Config} {m m' : Moment}
    {next next' : Option Request} (hd : d.accept = .ok circuit)
    (hv : p.Visits levels (.start circuit config) next m) (hv' : p'.Visits below m next' m') :
    m.state.store.size = circuit.totalSignals ∧
    (∀ i, m.state.store.isWritten? i = some true → m'.state.store.isWritten? i = some true) ∧
    (∃ l, Log .any (.start circuit config) l m) ∧
    (∀ l, Log .any (.start circuit config) l m →
      m.state.store.values = replay (⟨0, 1⟩ :: l) (List.replicate circuit.totalSignals 0) ∧
      ∀ i < circuit.totalSignals,
        (m.state.store.isWritten? i = some true ↔ i = 0 ∨ i ∈ l.map Write.signal) ∧
        (m.state.store.isWritten? i ≠ some true →
          m.state.store.isWritten? i = some false ∧ m.state.store.read? i = some 0)) ∧
    (∀ i < circuit.witnessLength, ∃ signal v, circuit.witnessSignal? i = some signal ∧
      signal < circuit.totalSignals ∧ m.state.store.read? signal = some v ∧
      (∀ enter, (Request.witness i).perform enter m.state = .ok v m.state) ∧
      m.state.witness[i]? = some v ∧ m.state.witnessNumbers[i]? = some v.val) ∧
    (∀ enter i, circuit.witnessLength ≤ i →
      (Request.witness i).perform enter m.state = .error .outOfRange m.state) ∧
    (∀ enter, Request.witnessLength.perform enter m.state = .ok circuit.witnessLength m.state) ∧
    m.state.witness.length = circuit.witnessLength ∧
    (∀ n ∈ m.state.witnessNumbers, n < Scalar.modulus) ∧
    m.state.witnessNumbers.map Scalar.ofNat = m.state.witness := by
  have hup := Moment.upright_start circuit config
  have hpath : Path .any (.start circuit config) m := hv.path_any hup
  have hlater : Path .any m m' := hv'.path_any (hpath.upright hup)
  have hcirc : m.state.circuit = circuit := hpath.circuit_eq.1
  obtain ⟨l₀, hl₀⟩ := hpath.log
  have hsize : m.state.store.size = circuit.totalSignals :=
    (hl₀.shows (Moment.shows_start circuit config)).size
  have hsame : m.state.store.size = m.state.circuit.totalSignals := by rw [hcirc, hsize]
  refine ⟨hsize, ?_, ⟨l₀, hl₀⟩, fun l hl => ?_, fun i hi => ?_, fun enter i hi => ?_,
    fun enter => ?_, ?_, m.state.witnessNumbers_canonical⟩
  · exact hlater.keeps (I := fun m' => m.state.store.Grows m'.state.store)
      (fun _ _ hi hs i hw => hs.grows i (hi i hw)) (.refl _)
  · have hshows := hl.shows (Moment.shows_start circuit config)
    refine ⟨hshows.values, fun i hi => ⟨?_, fun hno => ?_⟩⟩
    · rw [hshows.marks]
      simp [hi]
    · exact hshows.unwritten hi fun hin => hno ((hshows.marks i).mpr ⟨hi, hin⟩)
  · obtain ⟨signal, hsignal, hin⟩ := CircuitDescription.witnessSignal_of_accept hd hi
    obtain ⟨v, hread, hone, hall⟩ := Computation.witness_entry (c := m.state) (i := i)
      (by rw [hcirc]; exact hsignal) (hsize ▸ hin)
    refine ⟨signal, v, hsignal, hin, hread,
      fun enter => inRange_some (f := fun c => c.witness? i) hone, hall, ?_⟩
    unfold Computation.witnessNumbers
    rw [List.getElem?_map, hall]
    rfl
  · have hnone : m.state.witness? i = none :=
      Computation.witness?_eq_none hsame (hcirc.symm ▸ hi)
    exact inRange_none (f := fun c => c.witness? i) hnone
  · show EStateM.Result.ok m.state.circuit.witnessLength m.state = _
    rw [hcirc]
  · rw [Computation.length_witness hsame, hcirc]

/-- The same inside the body of the small circuit's main component: both inputs are there, and the
    output and the child's signal still hold zero. -/
theorem Program.Visits.witness_total_relay :
    relayInside.store.size = 5 ∧ relayInside.witness.length = 5 ∧
    (∃ v, (Request.witness 3).perform (enterWithin 1) relayInside = .ok v relayInside ∧
      relayInside.witness[3]? = some v ∧ v = 7) ∧
    relayInside.store.read? 4 = some 0 := by
  have hv' : (Program.done ()).Visits 0 ⟨[⟨0⟩], relayInside⟩ none ⟨[⟨0⟩], relayInside⟩ := .done
  obtain ⟨hsize, -, ⟨l, hl⟩, hlog, hentries, -, -, hlength, -⟩ :=
    witness_total accept_relay relay_visits hv'
  obtain ⟨signal, v, hsignal, -, hread, hone, hall, -⟩ := hentries 3 (by decide)
  cases hsignal
  have hseven : relayInside.store.read? 3 = some 7 := by decide
  have hunwritten : relayInside.store.isWritten? 4 ≠ some true := by decide
  exact ⟨hsize, hlength, ⟨v, hone _, hall, Option.some.inj (hread.symm.trans hseven)⟩,
    (((hlog l hl).2 4 (by decide)).2 hunwritten).2⟩

end CircuitWitness
