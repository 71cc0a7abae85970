import Mathlib.Data.List.Find
import CircuitWitness.Proofs.Coverage
import CircuitWitness.Proofs.Table
/-
  Which descriptions are accepted.

  A description is accepted exactly if it is well formed and none of its empty inputs lies beyond
  the main inputs (`CircuitDescription.accept_iff`).  The part that takes an argument is the one on
  declared inputs: the check goes through them one by one, and what comes out is a partition of the
  main inputs, each of which has one address and one only.  An empty input is in nobody's way, so a
  partition says nothing about where it lies; the check does, for it compares the ends.

  The check can also be made with one mark for each main input, and with the hashes kept apart from
  the names (`InputIndex.scanCoverage`).  Made in this way it has two more ways to fail: to look up
  a name under whose hash nothing is known, and to touch a mark that is not there.  It does neither,
  because both parts are written together and an input is marked only after its end was compared;
  so it finds what the check finds (`scanCoverage_eq`).  The invariant is that the marks are those
  of the inputs passed so far (`marksOf`).
-/

namespace CircuitWitness

/-! ## Inputs declared one after another -/

/-- The inputs that were declared, some of them in vain: what is refused changes nothing. -/
def InputMap.declared (calls : List InputSignal) : InputMap :=
  calls.foldl (fun m s => (m.insert s).toOption.getD m) .empty

/-- Declared inputs in two parts: the names with their hashes, in the order of their declaration,
    and the place and size that a hash finds. -/
structure InputIndex where
  names : List (String × UInt64)
  entries : List (UInt64 × Nat × Nat)

namespace InputIndex

def empty : InputIndex := ⟨[], []⟩

/-- Declare an input. -/
def insert (x : InputIndex) (s : InputSignal) : Except Refusal InputIndex :=
  if (x.entries.lookup s.hash).isSome then .error (.invalidCircuit (.inputTwice s.name))
  else .ok ⟨x.names ++ [(s.name, s.hash)], (s.hash, s.offset, s.size) :: x.entries⟩

/-- The inputs that were declared, some of them in vain. -/
def declared (calls : List InputSignal) : InputIndex :=
  calls.foldl (fun x s => (x.insert s).toOption.getD x) .empty

/-- Both parts tell of the same inputs. -/
structure Indexes (x : InputIndex) (m : InputMap) : Prop where
  names : x.names = m.signals.map fun s => (s.name, s.hash)
  entries : ∀ hash, x.entries.lookup hash = (m.find? hash).map fun s => (s.offset, s.size)
  isEmpty : x.entries.isEmpty = m.isEmpty

end InputIndex

namespace InputMap

variable {m : InputMap} {s : InputSignal}

theorem find?_append (hash : UInt64) : (InputMap.mk (m.signals ++ [s])).find? hash
    = (m.find? hash).or (if s.hash = hash then some s else none) := by
  unfold find?
  rw [List.find?_append]
  congr 1
  by_cases h : s.hash = hash <;> simp [h]

/-- A declaration is refused by both or changes both alike. -/
theorem insert_index {x : InputIndex} (hx : x.Indexes m) :
    ((x.insert s).toOption.getD x).Indexes ((m.insert s).toOption.getD m) := by
  unfold InputIndex.insert insert
  rw [hx.entries, Option.isSome_map]
  by_cases hnew : (m.find? s.hash).isSome = true
  · rw [if_pos hnew, if_pos hnew]
    exact hx
  · rw [if_neg hnew, if_neg hnew]
    refine ⟨?_, fun hash => ?_, ?_⟩
    · show x.names ++ [(s.name, s.hash)] = (m.signals ++ [s]).map _
      rw [hx.names, List.map_append]
      rfl
    · show List.lookup hash ((s.hash, s.offset, s.size) :: x.entries)
        = ((InputMap.mk (m.signals ++ [s])).find? hash).map _
      rw [find?_append, List.lookup_cons, hx.entries]
      by_cases hhash : s.hash = hash
      · subst hhash
        rw [Option.not_isSome_iff_eq_none.mp hnew]
        simp
      · have hne : (hash == s.hash) = false := beq_false_of_ne (Ne.symm hhash)
        rw [hne, if_neg hhash, Option.or_none]
    · show false = (m.signals ++ [s]).isEmpty
      simp

theorem nodup_insert (hm : (m.signals.map InputSignal.hash).Nodup) :
    (((m.insert s).toOption.getD m).signals.map InputSignal.hash).Nodup := by
  cases hs : m.insert s with
  | error e => exact hm
  | ok m' =>
    have hall : [s].foldlM insert m = .ok m' := by rw [List.foldlM_cons, hs]; rfl
    exact (of_insert_all hall hm).2

/-- However inputs were declared, no two of them share a hash. -/
theorem nodup_declared (calls : List InputSignal) :
    ((declared calls).signals.map InputSignal.hash).Nodup := by
  unfold declared
  suffices h : ∀ m : InputMap, (m.signals.map InputSignal.hash).Nodup →
      ((calls.foldl (fun m s => (m.insert s).toOption.getD m) m).signals.map
        InputSignal.hash).Nodup from h .empty List.nodup_nil
  induction calls with
  | nil => exact fun _ hm => hm
  | cons s rest ih => exact fun m hm => ih _ (nodup_insert hm)

theorem indexes_declared (calls : List InputSignal) :
    (InputIndex.declared calls).Indexes (declared calls) := by
  unfold InputIndex.declared declared
  suffices h : ∀ (x : InputIndex) (m : InputMap), x.Indexes m →
      (calls.foldl (fun x s => (x.insert s).toOption.getD x) x).Indexes
        (calls.foldl (fun m s => (m.insert s).toOption.getD m) m) from
    h .empty .empty ⟨rfl, fun _ => rfl, rfl⟩
  induction calls with
  | nil => exact fun _ _ hx => hx
  | cons s rest ih => exact fun x m hx => ih _ _ (insert_index hx)

end InputMap

/-! ## One mark for each main input -/

/-- How a check with marks ends, if it does not pass. -/
inductive ScanFault where
  | defect (e : CircuitDefect)
  /-- There is a name, and nothing under its hash. -/
  | unlisted (hash : UInt64)
  /-- A mark was touched that is not there. -/
  | unmarked (position : Nat)
deriving DecidableEq

/-- The first of some positions that is marked. -/
def firstMarked (marks : Array Bool) : List Nat → Except ScanFault (Option Nat)
  | [] => .ok none
  | position :: rest =>
    match marks[position]? with
    | none => .error (.unmarked position)
    | some true => .ok (some position)
    | some false => firstMarked marks rest

/-- Mark the positions from one up to another. -/
def markFrom (marks : Array Bool) (start stop : Nat) : Except ScanFault (Array Bool) :=
  if start ≤ stop ∧ stop ≤ marks.size then
    .ok (marks.mapIdx fun i mark => mark || (start ≤ i && i < stop))
  else .error (.unmarked stop)

namespace InputIndex

/-- Mark what the inputs of some names cover, unless one reaches beyond the main inputs or covers
    what was marked before. -/
def scan (x : InputIndex) (inputs : Nat) :
    List (String × UInt64) → Array Bool → Except ScanFault (Array Bool)
  | [], marks => .ok marks
  | (name, hash) :: rest, marks =>
    match x.entries.lookup hash with
    | none => .error (.unlisted hash)
    | some (offset, size) =>
      let stop := offset + size
      if inputs < stop then .error (.defect (.inputOutside name offset stop inputs))
      else
        match firstMarked marks (List.range' offset size) with
        | .error f => .error f
        | .ok (some position) => .error (.defect (.inputOverlap name position))
        | .ok none =>
          match markFrom marks offset stop with
          | .error f => .error f
          | .ok marks => scan x inputs rest marks

/-- The check of the declared inputs, made with marks. -/
def scanCoverage (x : InputIndex) (inputs : Nat) : Except ScanFault Unit :=
  match x.scan inputs x.names (Array.replicate inputs false) with
  | .error f => .error f
  | .ok marks =>
    if x.entries.isEmpty then .ok ()
    else
      match (List.range inputs).find? fun i => marks[i]? == some false with
      | some position => .error (.defect (.inputGap position))
      | none => .ok ()

end InputIndex

/-- The marks of some inputs. -/
def marksOf (inputs : Nat) (signals : List InputSignal) : Array Bool :=
  Array.ofFn fun i : Fin inputs => coveredBy signals i

section Marks

variable {inputs i : Nat} {signals earlier : List InputSignal} {s : InputSignal}

@[simp] theorem size_marksOf : (marksOf inputs signals).size = inputs := Array.size_ofFn

theorem getElem?_marksOf (hi : i < inputs) :
    (marksOf inputs signals)[i]? = some (coveredBy signals i) := by
  simp [marksOf, hi]

theorem marksOf_nil : marksOf inputs [] = Array.replicate inputs false := by
  refine Array.ext_getElem? fun i => ?_
  by_cases hi : i < inputs
  · rw [getElem?_marksOf hi]
    simp [coveredBy, hi]
  · simp [marksOf, hi]

/-- The marks of the earlier inputs find what a search through them finds. -/
theorem firstMarked_marksOf {positions : List Nat} (h : ∀ i ∈ positions, i < inputs) :
    firstMarked (marksOf inputs earlier) positions
      = .ok (positions.find? (coveredBy earlier)) := by
  induction positions with
  | nil => rfl
  | cons i rest ih =>
    have hi : (marksOf inputs earlier)[i]? = _ := getElem?_marksOf (h i (List.mem_cons_self ..))
    have hrest := ih fun j hj => h j (List.mem_cons_of_mem i hj)
    unfold firstMarked
    rw [hi, List.find?_cons]
    cases coveredBy earlier i with
    | true => rfl
    | false => exact hrest

/-- Marking an input that lies among the main inputs. -/
theorem markFrom_marksOf (hs : s.stop ≤ inputs) :
    markFrom (marksOf inputs earlier) s.offset s.stop = .ok (marksOf inputs (s :: earlier)) := by
  have hle : s.offset ≤ s.stop := Nat.le_add_right _ _
  unfold markFrom
  rw [if_pos ⟨hle, by rw [size_marksOf]; exact hs⟩]
  congr 1
  refine Array.ext_getElem? fun i => ?_
  by_cases hi : i < inputs
  · rw [Array.getElem?_mapIdx, getElem?_marksOf hi, getElem?_marksOf hi]
    show some (coveredBy earlier i || s.covers i) = some (s.covers i || coveredBy earlier i)
    rw [Bool.or_comm]
  · simp [hi]

end Marks

namespace InputIndex

variable {x : InputIndex} {m : InputMap}

/-- **The scan keeps to its marks and knows every name.**  It fails as the check of the inputs
    fails; if the check passes, it ends with the marks of all inputs. -/
theorem scan_eq (hx : x.Indexes m) (inputs : Nat) (rest earlier : List InputSignal)
    (hrest : ∀ s ∈ rest, m.find? s.hash = some s) :
    x.scan inputs (rest.map fun s => (s.name, s.hash)) (marksOf inputs earlier)
      = match checkInputs inputs earlier rest with
        | .error e => .error (.defect e)
        | .ok () => .ok (marksOf inputs (rest.reverse ++ earlier)) := by
  induction rest generalizing earlier with
  | nil => rfl
  | cons s rest ih =>
    have hlookup : x.entries.lookup s.hash = some (s.offset, s.size) := by
      rw [hx.entries, hrest s (List.mem_cons_self ..)]
      rfl
    rw [List.map_cons, scan, hlookup, checkInputs]
    show (if inputs < s.stop then _ else _) = _
    by_cases hstop : inputs < s.stop
    · rw [if_pos hstop, if_pos hstop]
      rfl
    · have hin : s.stop ≤ inputs := Nat.not_lt.mp hstop
      have hpositions : ∀ i ∈ List.range' s.offset s.size, i < inputs := fun i hi =>
        Nat.lt_of_lt_of_le (List.mem_range'_1.mp hi).2 hin
      rw [if_neg hstop, if_neg hstop, firstMarked_marksOf hpositions]
      cases (List.range' s.offset s.size).find? (coveredBy earlier) with
      | some position => rfl
      | none =>
        have hmark : markFrom (marksOf inputs earlier) s.offset (s.offset + s.size) = _ :=
          markFrom_marksOf hin
        have hnext := ih (s :: earlier) fun s' hs' => hrest s' (List.mem_cons_of_mem s hs')
        simp only [hmark]
        rw [hnext, List.reverse_cons, List.append_assoc]
        rfl

/-- **Made with marks, the check finds what it finds otherwise**: it touches no mark that is not
    there, and knows every name. -/
theorem scanCoverage_eq {d : CircuitDescription} (hx : x.Indexes d.inputs)
    (hnodup : (d.inputs.signals.map InputSignal.hash).Nodup) (inputs : Nat) :
    x.scanCoverage inputs = (d.checkCoverage inputs).mapError .defect := by
  have hscan := scan_eq hx inputs d.inputs.signals [] fun s hs => InputMap.find?_of_mem hnodup hs
  rw [← hx.names, marksOf_nil] at hscan
  unfold scanCoverage CircuitDescription.checkCoverage
  rw [hscan, hx.isEmpty]
  cases checkInputs inputs [] d.inputs.signals with
  | error e => rfl
  | ok u =>
    have hgap : ((List.range inputs).find? fun i =>
          (marksOf inputs (d.inputs.signals.reverse ++ []))[i]? == some false)
        = (List.range inputs).find? fun i => !coveredBy d.inputs.signals i := by
      refine List.find?_congr fun i hi => ?_
      rw [getElem?_marksOf (List.mem_range.mp hi), List.append_nil]
      unfold coveredBy
      rw [List.any_reverse]
      cases d.inputs.signals.any fun s => s.covers i <;> rfl
    simp only [hgap]
    split
    · rfl
    · cases (List.range inputs).find? fun i => !coveredBy d.inputs.signals i <;> rfl

end InputIndex

/-! ## Partitions of the main inputs -/

namespace InputMap

variable {m : InputMap} {inputs : Nat}

/-- A hash and an index stand for a main input. -/
def Addresses (m : InputMap) (address : UInt64 × Nat) (position : Nat) : Prop :=
  ∃ s, m.find? address.1 = some s ∧ address.2 < s.size ∧ s.offset + address.2 = position

/-- The declared inputs are a partition of the main inputs: they cover nothing else, and every main
    input has exactly one address. -/
structure Partitions (m : InputMap) (inputs : Nat) : Prop where
  within : ∀ s ∈ m.signals, ∀ position, s.covers position = true → position < inputs
  once : ∀ position < inputs, ∃! address, m.Addresses address position

/-- What an input covers has the address that counts from its offset. -/
theorem addresses_of_covers (hm : (m.signals.map InputSignal.hash).Nodup) {s : InputSignal}
    (hs : s ∈ m.signals) {position : Nat} (hcov : s.covers position = true) :
    m.Addresses (s.hash, position - s.offset) position := by
  obtain ⟨hle, hlt⟩ := InputSignal.covers_iff.mp hcov
  unfold InputSignal.stop at hlt
  refine ⟨s, find?_of_mem hm hs, ?_, ?_⟩
  · show position - s.offset < s.size
    omega
  · show s.offset + (position - s.offset) = position
    omega

/-- Inputs that lie among the main inputs, keep apart from each other and leave none out are a
    partition. -/
theorem partitions_of_check {d : CircuitDescription} {main : TemplateShape}
    (hm : (d.inputs.signals.map InputSignal.hash).Nodup) (hne : d.inputs.isEmpty = false)
    (hcheck : d.check main = .ok ()) : d.inputs.Partitions main.inputs := by
  obtain ⟨hwithin, hapart, -⟩ := checkInputs_ok (CircuitDescription.of_check hcheck).2.2
  have hfit : Circuit.InputsFit ⟨d, main⟩ := ⟨hwithin, hapart⟩
  refine ⟨fun s hs position hcov => ?_, fun position hposition => ?_⟩
  · exact Nat.lt_of_lt_of_le (InputSignal.covers_iff.mp hcov).2 (hwithin s hs)
  · obtain ⟨s, hs, hcov⟩ := CircuitDescription.covered_of_check hcheck hne hposition
    refine ⟨_, addresses_of_covers hm hs (InputSignal.covers_iff.mpr hcov), ?_⟩
    rintro ⟨hash, index⟩ ⟨s', hs', hindex, hplace⟩
    obtain ⟨s'', hs'', hindex', hplace'⟩ :=
      addresses_of_covers hm hs (InputSignal.covers_iff.mpr hcov)
    -- Two addresses of one main input are the same.
    obtain ⟨hhash, hsame⟩ := hfit.slot_inj hs' hs'' hindex hindex' (by
      unfold Circuit.slot
      simp only at hplace hplace' ⊢
      omega)
    exact Prod.ext hhash hsame

namespace Partitions

variable (h : m.Partitions inputs)
include h

/-- An input that covers anything ends among the main inputs. -/
theorem stop_le {s : InputSignal} (hs : s ∈ m.signals) (hempty : s.size = 0 → s.offset ≤ inputs) :
    s.stop ≤ inputs := by
  unfold InputSignal.stop
  by_cases hsize : s.size = 0
  · have hle := hempty hsize
    omega
  · have hlast : s.covers (s.offset + s.size - 1) = true := by
      rw [InputSignal.covers_iff]
      unfold InputSignal.stop
      omega
    have hlt := h.within s hs _ hlast
    omega

/-- No main input belongs to two inputs, for it would have two addresses. -/
theorem apart (hm : (m.signals.map InputSignal.hash).Nodup) :
    m.signals.Pairwise InputSignal.Apart := by
  have hhashes : m.signals.Pairwise fun s s' => s.hash ≠ s'.hash := List.pairwise_map.mp hm
  refine hhashes.imp_of_mem fun {s s'} hs hs' hne position hcov hcov' => hne ?_
  obtain ⟨address, -, hunique⟩ := h.once position (h.within s hs position hcov)
  have hfirst := hunique _ (addresses_of_covers hm hs hcov)
  have hsecond := hunique _ (addresses_of_covers hm hs' hcov')
  exact congrArg Prod.fst (hfirst.trans hsecond.symm)

theorem covered {position : Nat} (hposition : position < inputs) :
    coveredBy m.signals position = true := by
  obtain ⟨address, ⟨s, hs, hindex, hplace⟩, -⟩ := h.once position hposition
  refine List.any_eq_true.mpr ⟨s, (of_find? hs).1, InputSignal.covers_iff.mpr ?_⟩
  unfold InputSignal.stop
  omega

end Partitions

/-- The number of elements is the number of positions in the inputs, taken together. -/
theorem totalSize_eq (place : InputSignal → Nat) :
    m.totalSize = (m.signals.flatMap fun s => List.range' (place s) s.size).length := by
  unfold totalSize
  suffices h : ∀ total, m.signals.foldl (fun total s => total + s.size) total
      = total + (m.signals.flatMap fun s => List.range' (place s) s.size).length from
    (h 0).trans (Nat.zero_add _)
  induction m.signals with
  | nil => exact fun _ => rfl
  | cons s rest ih =>
    intro total
    rw [List.foldl_cons, ih, List.flatMap_cons, List.length_append, List.length_range',
      Nat.add_assoc]

end InputMap

/-! ## Well-formed descriptions -/

namespace CircuitDescription

/-- What is to be expected of a description with a given main template: no template is missing, the
    main component has a handle and a block in the store, signal 0 is left alone, the witness is
    made of signals, and the declared inputs, if there are any, are a partition of the main
    inputs. -/
structure WellFormed (d : CircuitDescription) (main : TemplateShape) : Prop where
  complete : ∀ i < d.templates.size, (d.templates.get? ⟨i⟩).isSome = true
  template : d.templates.shape? d.mainTemplate = some main
  components : 1 ≤ d.totalComponents
  start : 1 ≤ d.mainSignalStart
  room : d.mainSignalStart + main.signals ≤ d.totalSignals
  witness : ∀ signal ∈ d.witness, signal < d.totalSignals
  inputs : d.inputs.isEmpty = true ∨ d.inputs.Partitions main.inputs

variable {d : CircuitDescription} {main : TemplateShape}

theorem wellFormed_of_accept {circuit : Circuit} (h : d.accept = .ok circuit)
    (hm : (d.inputs.signals.map InputSignal.hash).Nodup) :
    d.WellFormed circuit.mainShape ∧ ∀ s ∈ d.inputs.signals, s.stop ≤ circuit.mainShape.inputs := by
  obtain ⟨hd, hmain, hcheck⟩ := of_accept h
  obtain ⟨hcomponents, hstart, hinputs⟩ := of_check hcheck
  obtain ⟨hroom, hwitness⟩ := room_of_check hcheck
  have hvalid : d.templates.validate = .ok () := by
    unfold accept at h
    cases hv : d.templates.validate with
    | ok u => rfl
    | error e => rw [hv] at h; cases h
  refine ⟨⟨TemplateTable.validate_iff.mp hvalid, hd ▸ hmain, Nat.one_le_iff_ne_zero.mpr hcomponents,
    Nat.one_le_iff_ne_zero.mpr hstart, hroom, hwitness, ?_⟩, (checkInputs_ok hinputs).1⟩
  cases hne : d.inputs.isEmpty with
  | true => exact .inl rfl
  | false => exact .inr (InputMap.partitions_of_check hm hne hcheck)

theorem accept_of_wellFormed (h : d.WellFormed main)
    (hm : (d.inputs.signals.map InputSignal.hash).Nodup)
    (hempty : ∀ s ∈ d.inputs.signals, s.size = 0 → s.offset ≤ main.inputs) :
    d.accept = .ok ⟨d, main⟩ := by
  have hcoverage : d.checkCoverage main.inputs = .ok () := by
    rcases h.inputs with hnone | hparts
    · have hnil : d.inputs.signals = [] := List.isEmpty_iff.mp hnone
      unfold checkCoverage
      rw [hnone, hnil]
      rfl
    · refine checkCoverage_ok ?_ fun i hi => hparts.covered hi
      exact checkInputs_of_apart (fun s hs => hparts.stop_le hs (hempty s hs)) (hparts.apart hm)
        fun _ _ _ hs' => nomatch hs'
  exact accept_ok (TemplateTable.validate_iff.mpr h.complete) h.template
    (check_ok (Nat.one_le_iff_ne_zero.mp h.components) (Nat.one_le_iff_ne_zero.mp h.start) h.room
      hcoverage h.witness)

/-- The declared inputs of an accepted circuit have as many elements as it has main inputs. -/
theorem totalSize_of_accept {circuit : Circuit} (h : d.accept = .ok circuit)
    (hne : d.inputs.isEmpty = false) : d.inputs.totalSize = circuit.mainShape.inputs := by
  obtain ⟨hd, -, hcheck⟩ := of_accept h
  have hperm := (inputsFit h).slots_perm fun i hi => by
    rw [hd]
    exact covered_of_check hcheck hne hi
  rw [hd] at hperm
  rw [InputMap.totalSize_eq fun s => circuit.slot s 0, hperm.length_eq, List.length_range']
  rfl

/-- **Exactly the well-formed descriptions are accepted**, but for those in which an empty input
    lies beyond the main inputs.  The declared inputs may be the outcome of any declarations, also
    of some that were refused.  Where there are any, they have as many elements as there are main
    inputs; and if the check is made with marks, it touches no mark that is not there, and it finds
    an entry for every name. -/
theorem accept_iff {calls : List InputSignal} (hinputs : d.inputs = InputMap.declared calls) :
    (∀ circuit, d.accept = .ok circuit ↔ circuit.toCircuitDescription = d ∧
      d.WellFormed circuit.mainShape ∧
      ∀ s ∈ d.inputs.signals, s.size = 0 → s.offset ≤ circuit.mainShape.inputs) ∧
    (∀ circuit, d.accept = .ok circuit → d.inputs.isEmpty = false →
      d.inputs.totalSize = circuit.mainShape.inputs) ∧
    ∀ inputs, (InputIndex.declared calls).scanCoverage inputs
      = (d.checkCoverage inputs).mapError ScanFault.defect := by
  have hm : (d.inputs.signals.map InputSignal.hash).Nodup :=
    hinputs ▸ InputMap.nodup_declared calls
  refine ⟨fun circuit => ⟨fun h => ?_, ?_⟩, fun circuit h hne => totalSize_of_accept h hne,
    fun inputs => ?_⟩
  · obtain ⟨hwell, hstop⟩ := wellFormed_of_accept h hm
    refine ⟨(of_accept h).1, hwell, fun s hs _ => ?_⟩
    exact Nat.le_trans (Nat.le_add_right _ _) (hstop s hs)
  · rintro ⟨rfl, hwell, hempty⟩
    exact accept_of_wellFormed hwell hm hempty
  · exact InputIndex.scanCoverage_eq (hinputs ▸ InputMap.indexes_declared calls) hm inputs

/-! ### Empty inputs -/

/-- The main template of a circuit with two inputs. -/
def pairShape : TemplateShape := ⟨"Pair", 0, 2, 2, 0⟩

/-- Both main inputs belong to one declared input, and another one is empty. -/
def pairDescription (place : Nat) : CircuitDescription where
  name := "pair"
  totalSignals := 3
  templates := ⟨#[some ⟨pairShape, fun _ => pure (), none⟩]⟩
  inputs := ⟨[⟨"in", 0, 2⟩, ⟨"nothing", place, 0⟩]⟩

/-- An empty input right after the last main input does no harm, and neither does a declaration
    that was refused. -/
theorem accept_iff_pair :
    (pairDescription 2).inputs
      = InputMap.declared [⟨"in", 0, 2⟩, ⟨"in", 7, 7⟩, ⟨"nothing", 2, 0⟩] ∧
    (pairDescription 2).accept = .ok ⟨pairDescription 2, pairShape⟩ ∧
    (pairDescription 2).inputs.Partitions 2 ∧ (pairDescription 2).inputs.totalSize = 2 ∧
    (InputIndex.declared [⟨"in", 0, 2⟩, ⟨"in", 7, 7⟩, ⟨"nothing", 2, 0⟩]).scanCoverage 2 = .ok () :=
  have hinputs : (pairDescription 2).inputs
      = InputMap.declared [⟨"in", 0, 2⟩, ⟨"in", 7, 7⟩, ⟨"nothing", 2, 0⟩] := by decide +kernel
  have haccept : (pairDescription 2).accept = .ok ⟨pairDescription 2, pairShape⟩ := rfl
  have hall := accept_iff hinputs
  have hwell : (pairDescription 2).WellFormed pairShape := ((hall.1 _).mp haccept).2.1
  ⟨hinputs, haccept, hwell.inputs.resolve_left (by decide), hall.2.1 _ haccept rfl, hall.2.2 2⟩

/-- An empty input beyond the main inputs is refused, although the description is well formed. -/
theorem accept_empty_beyond :
    (pairDescription 5).inputs = InputMap.declared [⟨"in", 0, 2⟩, ⟨"nothing", 5, 0⟩] ∧
    (pairDescription 5).WellFormed pairShape ∧
    (pairDescription 5).accept = .error (.invalidCircuit (.inputOutside "nothing" 5 5 2)) := by
  have hinputs : (pairDescription 5).inputs
      = InputMap.declared [⟨"in", 0, 2⟩, ⟨"nothing", 5, 0⟩] := by decide +kernel
  have hm : ((pairDescription 5).inputs.signals.map InputSignal.hash).Nodup :=
    hinputs ▸ InputMap.nodup_declared _
  have hin : (⟨"in", 0, 2⟩ : InputSignal) ∈ (pairDescription 5).inputs.signals :=
    List.mem_cons_self ..
  refine ⟨hinputs, ⟨by decide, rfl, by decide, by decide, by decide, by decide, .inr ⟨?_, ?_⟩⟩,
    rfl⟩
  · intro s hs position hcov
    obtain ⟨hle, hlt⟩ := InputSignal.covers_iff.mp hcov
    unfold InputSignal.stop at hlt
    rcases List.mem_pair.mp hs with rfl | rfl
    · exact hlt
    · exact absurd hlt (Nat.not_lt.mpr hle)
  · intro position hposition
    have hcov : InputSignal.covers ⟨"in", 0, 2⟩ position = true :=
      InputSignal.covers_iff.mpr ⟨Nat.zero_le _, hposition⟩
    refine ⟨_, InputMap.addresses_of_covers hm hin hcov, ?_⟩
    rintro ⟨hash, index⟩ ⟨s, hs, hindex, hplace⟩
    obtain ⟨hmem, hhash⟩ := InputMap.of_find? hs
    -- The empty input has no address, so the address is one of the other input.
    rcases List.mem_pair.mp hmem with rfl | rfl
    · exact Prod.ext hhash.symm ((Nat.zero_add index).symm.trans hplace)
    · exact absurd hindex (Nat.not_lt_zero _)

end CircuitDescription

end CircuitWitness
