import Mathlib.Data.List.Nodup
import Mathlib.Data.List.Pairwise
import CircuitWitness.Proofs.Main
/-
  The declared inputs of an accepted circuit.

  An element of a declared input has an address, the hash of its name and an index.  In an accepted
  circuit each address stands for one of the main inputs, and different addresses stand for
  different ones.  The second half holds even if two declarations shared a hash: a hash finds the
  first of them, so two addresses of one hash belong to one declaration.
-/

namespace CircuitWitness

/-- No main input belongs to both signals. -/
def InputSignal.Apart (s s' : InputSignal) : Prop :=
  ∀ position, s.covers position = true → s'.covers position = true → False

instance : Std.Symm InputSignal.Apart := ⟨fun _ _ h position hs' hs => h position hs hs'⟩

theorem InputSignal.covers_iff {s : InputSignal} {position : Nat} :
    s.covers position = true ↔ s.offset ≤ position ∧ position < s.stop := by
  unfold covers
  simp

/-- What the check of the inputs has found, if it found no fault. -/
theorem checkInputs_ok {inputs : Nat} {signals earlier : List InputSignal}
    (h : checkInputs inputs earlier signals = .ok ()) :
    (∀ s ∈ signals, s.stop ≤ inputs) ∧ signals.Pairwise InputSignal.Apart ∧
      ∀ s ∈ signals, ∀ s' ∈ earlier, s'.Apart s := by
  induction signals generalizing earlier with
  | nil => exact ⟨by simp, .nil, by simp⟩
  | cons s rest ih =>
    unfold checkInputs at h
    split at h
    · cases h
    rename_i hstop
    split at h
    · cases h
    rename_i hfree
    obtain ⟨hwithin, hapart, hothers⟩ := ih h
    -- The check looks at every position of the signal, and finds none that was taken.
    have hs : ∀ s' ∈ earlier, s'.Apart s := by
      intro s' hs' position hcov' hcov
      have hmem : position ∈ List.range' s.offset s.size :=
        List.mem_range'_1.mpr (InputSignal.covers_iff.mp hcov)
      have hnot := List.find?_eq_none.mp hfree position hmem
      exact hnot (List.any_eq_true.mpr ⟨s', hs', hcov'⟩)
    refine ⟨?_, List.pairwise_cons.mpr ⟨?_, hapart⟩, ?_⟩
    · intro s' hs'
      rcases List.mem_cons.mp hs' with rfl | hs'
      · omega
      · exact hwithin s' hs'
    · intro s' hs'
      exact hothers s' hs' s (List.mem_cons_self ..)
    · intro s' hs' s'' hs''
      rcases List.mem_cons.mp hs' with rfl | hs'
      · exact hs s'' hs''
      · exact hothers s' hs' s'' (List.mem_cons_of_mem s hs'')

/-- The declared inputs lie among the main inputs and are apart from each other. -/
structure Circuit.InputsFit (circuit : Circuit) : Prop where
  within : ∀ s ∈ circuit.inputs.signals, s.stop ≤ circuit.mainInputCount
  apart : circuit.inputs.signals.Pairwise InputSignal.Apart

namespace CircuitDescription

/-- There is a handle and a block for the main component, and the inputs were checked. -/
theorem of_check {d : CircuitDescription} {main : TemplateShape} (h : d.check main = .ok ()) :
    d.totalComponents ≠ 0 ∧ d.mainSignalStart ≠ 0 ∧
      checkInputs main.inputs [] d.inputs.signals = .ok () := by
  unfold check checkCoverage at h
  dsimp only at h
  split at h
  · cases h
  rename_i hcomponents
  split at h
  · cases h
  rename_i hstart
  split at h
  · cases h
  refine ⟨hcomponents, hstart, ?_⟩
  cases hc : checkInputs main.inputs [] d.inputs.signals with
  | ok u => rfl
  | error e => rw [hc] at h; cases h

/-- There is room for as many signals as the main template declares, and every witness entry is a
    signal of the store. -/
theorem room_of_check {d : CircuitDescription} {main : TemplateShape} (h : d.check main = .ok ()) :
    d.mainSignalStart + main.signals ≤ d.totalSignals ∧
      ∀ signal ∈ d.witness, signal < d.totalSignals := by
  unfold check at h
  dsimp only at h
  split at h
  · cases h
  split at h
  · cases h
  split at h
  · cases h
  rename_i hroom
  split at h
  · cases h
  split at h
  · cases h
  rename_i hwitness
  refine ⟨Nat.not_lt.mp hroom, fun signal hsignal => ?_⟩
  simpa using List.find?_eq_none.mp hwitness signal hsignal

theorem inputsFit {d : CircuitDescription} {circuit : Circuit} (h : d.accept = .ok circuit) :
    circuit.InputsFit := by
  obtain ⟨hd, -, hcheck⟩ := of_accept h
  obtain ⟨hwithin, hapart, -⟩ := checkInputs_ok (of_check hcheck).2.2
  exact ⟨hd ▸ hwithin, hd ▸ hapart⟩

/-- Where there are declared inputs, they cover the main inputs. -/
theorem covered_of_check {d : CircuitDescription} {main : TemplateShape}
    (h : d.check main = .ok ()) (hne : d.inputs.isEmpty = false) {i : Nat} (hi : i < main.inputs) :
    ∃ s ∈ d.inputs.signals, s.offset ≤ i ∧ i < s.stop := by
  obtain ⟨-, -, hinputs⟩ := of_check h
  unfold check checkCoverage at h
  dsimp only at h
  rw [hinputs, hne] at h
  split at h
  · cases h
  split at h
  · cases h
  split at h
  · cases h
  cases hf : (List.range main.inputs).find? fun i => !coveredBy d.inputs.signals i with
  | some position => simp [hf] at h
  | none =>
    have hcovered : coveredBy d.inputs.signals i = true := by
      simpa using List.find?_eq_none.mp hf i (List.mem_range.mpr hi)
    obtain ⟨s, hs, hcov⟩ := List.any_eq_true.mp hcovered
    exact ⟨s, hs, InputSignal.covers_iff.mp hcov⟩

end CircuitDescription

/-! ## Descriptions that pass -/

/-- An input that lies among the main inputs and meets none of the earlier ones passes. -/
theorem checkInputs_cons {inputs : Nat} {earlier rest : List InputSignal} {s : InputSignal}
    (hstop : s.stop ≤ inputs)
    (hapart : ∀ i ∈ List.range' s.offset s.size, coveredBy earlier i = false) :
    checkInputs inputs earlier (s :: rest) = checkInputs inputs (s :: earlier) rest := by
  have hfree : (List.range' s.offset s.size).find? (coveredBy earlier) = none :=
    List.find?_eq_none.mpr fun i hi => by simp [hapart i hi]
  rw [checkInputs, if_neg (Nat.not_lt.mpr hstop), hfree]

/-- Inputs that lie among the main inputs and are apart from each other and from the earlier ones
    pass. -/
theorem checkInputs_of_apart {inputs : Nat} {signals earlier : List InputSignal}
    (hwithin : ∀ s ∈ signals, s.stop ≤ inputs) (hapart : signals.Pairwise InputSignal.Apart)
    (hothers : ∀ s ∈ signals, ∀ s' ∈ earlier, s'.Apart s) :
    checkInputs inputs earlier signals = .ok () := by
  induction signals generalizing earlier with
  | nil => rfl
  | cons s rest ih =>
    obtain ⟨hs, hrest⟩ := List.pairwise_cons.mp hapart
    have hfree : ∀ i ∈ List.range' s.offset s.size, coveredBy earlier i = false := by
      intro i hi
      rw [← Bool.not_eq_true]
      intro hcov
      obtain ⟨s', hs', hcov'⟩ := List.any_eq_true.mp hcov
      exact hothers s (List.mem_cons_self ..) s' hs' i hcov'
        (InputSignal.covers_iff.mpr (List.mem_range'_1.mp hi))
    rw [checkInputs_cons (hwithin s (List.mem_cons_self ..)) hfree]
    refine ih (fun s' hs' => hwithin s' (List.mem_cons_of_mem s hs')) hrest
      fun s' hs' s'' hs'' => ?_
    rcases List.mem_cons.mp hs'' with rfl | hs''
    · exact hs s' hs'
    · exact hothers s' (List.mem_cons_of_mem s hs') s'' hs''

namespace CircuitDescription

variable {d : CircuitDescription} {main : TemplateShape}

theorem checkCoverage_ok {inputs : Nat} (hinputs : checkInputs inputs [] d.inputs.signals = .ok ())
    (hcovered : ∀ i < inputs, coveredBy d.inputs.signals i = true) :
    d.checkCoverage inputs = .ok () := by
  have hgap : (List.range inputs).find? (fun i => !coveredBy d.inputs.signals i) = none :=
    List.find?_eq_none.mpr fun i hi => by simp [hcovered i (List.mem_range.mp hi)]
  unfold checkCoverage
  rw [hinputs]
  simp only [hgap, ite_self]

theorem check_ok (hcomponents : d.totalComponents ≠ 0) (hstart : d.mainSignalStart ≠ 0)
    (hroom : d.mainSignalStart + main.signals ≤ d.totalSignals)
    (hcoverage : d.checkCoverage main.inputs = .ok ())
    (hwitness : ∀ signal ∈ d.witness, signal < d.totalSignals) : d.check main = .ok () := by
  have hfound : d.witness.find? (fun signal => d.totalSignals ≤ signal) = none :=
    List.find?_eq_none.mpr fun signal hs => by simp [hwitness signal hs]
  unfold check
  simp only [if_neg hcomponents, if_neg hstart, if_neg (Nat.not_lt.mpr hroom), hcoverage, hfound]

theorem accept_ok (htable : d.templates.validate = .ok ())
    (hmain : d.templates.shape? d.mainTemplate = some main) (hcheck : d.check main = .ok ()) :
    d.accept = .ok ⟨d, main⟩ := by
  unfold accept
  simp only [htable, hmain, hcheck]

end CircuitDescription

/-! ## Declarations one after another -/

namespace InputMap

theorem of_find? {m : InputMap} {hash : UInt64} {s : InputSignal}
    (h : m.find? hash = some s) : s ∈ m.signals ∧ s.hash = hash :=
  ⟨List.mem_of_find?_eq_some h, by simpa using List.find?_some h⟩

theorem of_insert {m m' : InputMap} {s : InputSignal} (h : m.insert s = .ok m') :
    m'.signals = m.signals ++ [s] ∧ s.hash ∉ m.signals.map InputSignal.hash := by
  unfold insert at h
  split at h
  · cases h
  rename_i hnew
  cases h
  refine ⟨rfl, fun hmem => hnew ?_⟩
  obtain ⟨s', hs', hhash⟩ := List.mem_map.mp hmem
  unfold find?
  rw [List.find?_isSome]
  exact ⟨s', hs', by simpa using hhash⟩

theorem of_insert_all {signals : List InputSignal} {m m' : InputMap}
    (h : signals.foldlM insert m = .ok m') (hm : (m.signals.map InputSignal.hash).Nodup) :
    m'.signals = m.signals ++ signals ∧ (m'.signals.map InputSignal.hash).Nodup := by
  induction signals generalizing m with
  | nil =>
    cases h
    exact ⟨(List.append_nil _).symm, hm⟩
  | cons s rest ih =>
    rw [List.foldlM_cons] at h
    cases hs : m.insert s with
    | error e => rw [hs] at h; cases h
    | ok m₁ =>
      rw [hs] at h
      obtain ⟨heq, hnew⟩ := of_insert hs
      have hm₁ : (m₁.signals.map InputSignal.hash).Nodup := by
        rw [heq, List.map_append, List.nodup_append]
        refine ⟨hm, List.pairwise_singleton _ _, ?_⟩
        rintro a ha b hb rfl
        exact hnew (List.mem_singleton.mp hb ▸ ha)
      obtain ⟨heq', hnodup⟩ := ih h hm₁
      exact ⟨by rw [heq', heq, List.append_assoc]; rfl, hnodup⟩

/-- The inputs that were declared one after another have hashes of their own. -/
theorem of_ofList {signals : List InputSignal} {m : InputMap} (h : ofList signals = .ok m) :
    m.signals = signals ∧ (m.signals.map InputSignal.hash).Nodup := by
  obtain ⟨heq, hnodup⟩ := of_insert_all h List.nodup_nil
  exact ⟨heq, hnodup⟩

/-- Inputs with hashes of their own can be declared one after another. -/
theorem ofList_of_nodup {signals : List InputSignal}
    (h : (signals.map InputSignal.hash).Nodup) : ofList signals = .ok ⟨signals⟩ := by
  suffices hall : ∀ earlier, ((earlier ++ signals).map InputSignal.hash).Nodup →
      signals.foldlM insert ⟨earlier⟩ = .ok ⟨earlier ++ signals⟩ from hall [] h
  clear h
  induction signals with
  | nil =>
    intro earlier _
    rw [List.append_nil]
    rfl
  | cons s rest ih =>
    intro earlier hnodup
    have hnew : (InputMap.mk earlier).insert s = .ok ⟨earlier ++ [s]⟩ := by
      have hfree : (InputMap.mk earlier).find? s.hash = none := by
        refine List.find?_eq_none.mpr fun s' hs' he => ?_
        rw [List.map_append, List.nodup_append] at hnodup
        exact hnodup.2.2 _ (List.mem_map_of_mem hs') _ (List.mem_map_of_mem (List.mem_cons_self ..))
          (beq_iff_eq.mp he)
      unfold insert
      rw [hfree]
      rfl
    rw [List.append_cons] at hnodup ⊢
    rw [List.foldlM_cons, hnew]
    exact ih _ hnodup

/-- So each of them is found under its hash. -/
theorem find?_of_mem {m : InputMap} (hm : (m.signals.map InputSignal.hash).Nodup)
    {s : InputSignal} (hs : s ∈ m.signals) : m.find? s.hash = some s := by
  obtain ⟨s', hs'⟩ : ∃ s', m.find? s.hash = some s' := by
    refine Option.isSome_iff_exists.mp ?_
    unfold find?
    rw [List.find?_isSome]
    exact ⟨s, hs, by simp⟩
  obtain ⟨hmem, hhash⟩ := of_find? hs'
  rw [hs', List.inj_on_of_nodup_map hm hmem hs hhash]

end InputMap

namespace Circuit

/-- The signal of an element of a declared input. -/
def slot (circuit : Circuit) (s : InputSignal) (index : Nat) : Nat :=
  circuit.mainInputStart + s.offset + index

variable {circuit : Circuit} {hash hash' : UInt64} {s s' : InputSignal} {index index' : Nat}

/-- Every address stands for a main input. -/
theorem InputsFit.slot_mem (h : circuit.InputsFit) (hs : circuit.inputs.find? hash = some s)
    (hi : index < s.size) :
    circuit.slot s index ∈ List.range' circuit.mainInputStart circuit.mainInputCount := by
  have hstop := h.within s (InputMap.of_find? hs).1
  unfold InputSignal.stop at hstop
  unfold slot
  rw [List.mem_range'_1]
  omega

/-- **Different addresses stand for different main inputs.** -/
theorem InputsFit.slot_inj (h : circuit.InputsFit) (hs : circuit.inputs.find? hash = some s)
    (hs' : circuit.inputs.find? hash' = some s') (hi : index < s.size) (hi' : index' < s'.size)
    (he : circuit.slot s index = circuit.slot s' index') : hash = hash' ∧ index = index' := by
  obtain ⟨hmem, hhash⟩ := InputMap.of_find? hs
  obtain ⟨hmem', hhash'⟩ := InputMap.of_find? hs'
  unfold slot at he
  by_cases hsame : s = s'
  · subst hsame
    exact ⟨hhash.symm.trans hhash', by omega⟩
  · -- Two signals cannot both cover the main input in question.
    have hap : s.Apart s' := h.apart.forall hmem hmem' hsame
    exfalso
    refine hap (s.offset + index) ?_ ?_
    · rw [InputSignal.covers_iff]; unfold InputSignal.stop; omega
    · rw [InputSignal.covers_iff]; unfold InputSignal.stop; omega

/-- **The declared inputs have the main inputs among them**, each one its own, if they leave none
    out. -/
theorem InputsFit.slots_perm (h : circuit.InputsFit)
    (hcovered : ∀ i < circuit.mainInputCount,
      ∃ s ∈ circuit.inputs.signals, s.offset ≤ i ∧ i < s.stop) :
    (circuit.inputs.signals.flatMap fun s => List.range' (circuit.slot s 0) s.size).Perm
      (List.range' circuit.mainInputStart circuit.mainInputCount) := by
  have hstart : ∀ s : InputSignal, circuit.slot s 0 = circuit.mainInputStart + s.offset :=
    fun _ => rfl
  refine (List.perm_ext_iff_of_nodup ?_ List.nodup_range').mpr fun i => ?_
  · -- Two declared inputs have no signal in common.
    refine List.nodup_flatMap.mpr ⟨fun s _ => List.nodup_range', ?_⟩
    refine h.apart.imp fun {s s'} hap => ?_
    show List.Disjoint _ _
    rw [List.disjoint_left]
    intro i hi hi'
    rw [List.mem_range'_1, hstart] at hi hi'
    refine hap (i - circuit.mainInputStart) ?_ ?_
    · rw [InputSignal.covers_iff]; unfold InputSignal.stop; omega
    · rw [InputSignal.covers_iff]; unfold InputSignal.stop; omega
  · rw [List.mem_flatMap, List.mem_range'_1]
    constructor
    · rintro ⟨s, hs, hi⟩
      have hstop := h.within s hs
      unfold InputSignal.stop at hstop
      rw [List.mem_range'_1, hstart] at hi
      omega
    · rintro ⟨hge, hlt⟩
      obtain ⟨s, hs, hoffset, hstop⟩ := hcovered (i - circuit.mainInputStart) (by omega)
      unfold InputSignal.stop at hstop
      refine ⟨s, hs, ?_⟩
      rw [List.mem_range'_1, hstart]
      omega

end Circuit

/-- An address is accepted if main inputs are still to come and it stands for one of them. -/
theorem Computation.of_inputSlot {c : Computation} {hash : UInt64} {index i : Nat}
    (h : c.inputSlot hash index = .ok i) :
    ∃ s, c.pendingInputs ≠ 0 ∧ c.circuit.inputs.find? hash = some s ∧ index < s.size ∧
      i = c.circuit.slot s index := by
  unfold inputSlot at h
  split at h
  · cases h
  rename_i hp
  split at h
  · cases h
  rename_i s hs
  split at h
  · cases h
  rename_i hi
  cases h
  exact ⟨s, hp, hs, by omega, rfl⟩

end CircuitWitness
