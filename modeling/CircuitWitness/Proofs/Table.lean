import Mathlib.Data.Finset.Card
import Mathlib.Data.Finset.Lattice.Fold
import Mathlib.Order.Bounds.Basic
import Mathlib.Order.Lattice.Nat
import CircuitWitness.Template.Table
/-
  What a table holds after templates were entered in any order.

  Room for an identity is made before its slot is looked at, so an entry that is refused has
  touched the table by then.  It leaves no mark all the same: it is refused because the slot was
  there and taken, and then there was room and none was made (`reserve_eq`).  An entry that is taken
  may leave free slots below its own, which nobody can tell from slots that are not there
  (`get?_reserve`).

  So one entry, refused or not, does two things to a table: its identity finds the template unless
  it found one before (`get?_after`), and there are slots up to the identity (`size_after`).  By
  induction on the entries a table `Reflects` all of them, and whatever it answers is read off
  there.
-/

namespace CircuitWitness.TemplateTable

variable {t : TemplateTable} {id : TemplateId} {e existing : Template} {r : Refusal}
  {calls : List (TemplateId × Template)}

/-! ## Slots -/

/-- What is found has a slot. -/
theorem lt_size_of_get? (h : t.get? id = some e) : id.index < t.size := by
  by_contra hge
  simp only [get?] at h
  rw [Array.getElem?_eq_none (Nat.le_of_not_lt hge)] at h
  cases h

/-- The identities that have a slot, in order. -/
def identities (t : TemplateTable) : List TemplateId := (List.range t.size).map TemplateId.mk

/-- The identities of a table are those of its slots, filled or not. -/
theorem mem_identities : id ∈ t.identities ↔ id.index < t.size := by
  simp only [identities, List.mem_map, List.mem_range]
  constructor
  · rintro ⟨i, hi, rfl⟩
    exact hi
  · intro hlt
    exact ⟨id.index, hlt, rfl⟩

/-- Each of them is listed once, so fillings can be counted along the list. -/
theorem nodup_identities (t : TemplateTable) : t.identities.Nodup := by
  refine List.Nodup.map ?_ List.nodup_range
  intro i j hij
  cases hij
  rfl

theorem getElem_entries {i : Nat} (hi : i < t.entries.toList.length) :
    t.entries.toList[i] = t.get? ⟨i⟩ := by
  have hi : i < t.entries.size := hi
  simp [get?, hi]

/-- The slots in order are the look-ups in the order of the identities, which is what the counts
    and the scan go through. -/
theorem toList_entries (t : TemplateTable) : t.entries.toList = t.identities.map t.get? := by
  refine List.ext_getElem (by simp [identities, size]) fun i hi _ => ?_
  rw [getElem_entries hi]
  simp [identities]

/-- How many identities find a template with an alternate body. -/
theorem alternateCount_eq (t : TemplateTable) : t.alternateCount
    = (t.identities.toFinset.filter fun id =>
        (t.get? id).any fun e => e.alternate.isSome).card := by
  rw [← List.toFinset_filter, List.toFinset_card_of_nodup (t.nodup_identities.filter _)]
  simp only [alternateCount]
  rw [toList_entries, List.countP_map, List.countP_eq_length_filter]
  rfl

/-- The gap is the first slot that is free. -/
theorem gap?_eq_some_iff : t.gap? = some id ↔
    id.index < t.size ∧ t.get? id = none ∧ ∀ i < id.index, (t.get? ⟨i⟩).isSome = true := by
  simp only [gap?, Option.map_eq_some_iff, List.findIdx?_eq_some_iff_getElem]
  constructor
  · rintro ⟨i, ⟨hi, hfree, hbelow⟩, rfl⟩
    rw [getElem_entries, Option.isNone_iff_eq_none] at hfree
    refine ⟨hi, hfree, fun j hj => ?_⟩
    have hj := hbelow j hj
    rwa [getElem_entries, Bool.not_eq_true, Option.isNone_eq_false_iff] at hj
  · rintro ⟨hi, hfree, hbelow⟩
    have hi : id.index < t.entries.toList.length := hi
    refine ⟨id.index, ⟨hi, ?_, fun j hj => ?_⟩, rfl⟩
    · rw [getElem_entries, Option.isNone_iff_eq_none]
      exact hfree
    · rw [getElem_entries, Bool.not_eq_true, Option.isNone_eq_false_iff]
      exact hbelow j hj

/-- There is no gap if every slot is filled. -/
theorem gap?_eq_none_iff : t.gap? = none ↔ ∀ i < t.size, (t.get? ⟨i⟩).isSome = true := by
  simp only [gap?, Option.map_eq_none_iff, List.findIdx?_eq_none_iff, toList_entries,
    List.forall_mem_map, mem_identities]
  constructor
  · intro h i hi
    rw [← Option.not_isNone, h ⟨i⟩ hi]
    rfl
  · intro h id hid
    rw [← Option.not_isSome, h id.index hid]
    rfl

/-- Nothing is missing from a table that was validated. -/
theorem validate_iff : t.validate = .ok () ↔ ∀ i < t.size, (t.get? ⟨i⟩).isSome = true := by
  rw [← gap?_eq_none_iff]
  simp only [validate]
  cases t.gap? <;> simp

/-- Validation fails with the first gap and for no other reason. -/
theorem validate_error_iff : t.validate = .error r ↔
    ∃ id, t.gap? = some id ∧ r = .invalidCircuit (.missingTemplate id) := by
  simp only [validate]
  cases t.gap? <;> simp [eq_comm]

/-! ## Making room -/

/-- Room is made up to the identity, and never taken away. -/
theorem size_reserve (t : TemplateTable) (id : TemplateId) :
    (t.reserve id).size = max t.size (id.index + 1) := by
  simp only [reserve, size, Array.size_append, Array.size_replicate]
  omega

/-- New slots are free, and what was in a slot stays there. -/
theorem get?_reserve (t : TemplateTable) (id other : TemplateId) :
    (t.reserve id).get? other = t.get? other := by
  simp only [reserve, get?, Array.getElem?_append, Array.getElem?_replicate]
  by_cases h : other.index < t.entries.size
  · rw [if_pos h]
  · rw [if_neg h, Array.getElem?_eq_none (Nat.le_of_not_lt h)]
    split <;> rfl

/-- Where there is a template, there is room. -/
theorem reserve_eq (h : t.get? id = some e) : t.reserve id = t := by
  have hlt : id.index < t.entries.size := lt_size_of_get? h
  have hnone : id.index + 1 - t.entries.size = 0 := by omega
  simp only [reserve, hnone, Array.replicate_zero, Array.append_empty]

/-! ## One entry -/

/-- A slot is filled in place. -/
theorem size_fill (t : TemplateTable) (id : TemplateId) (e : Template) :
    (t.fill id e).size = t.size := Array.size_setIfInBounds

/-- A filled slot has its own entry, and the others are as they were. -/
theorem get?_fill (hroom : id.index < t.size) (e : Template) (other : TemplateId) :
    (t.fill id e).get? other = if id = other then some e else t.get? other := by
  simp only [fill, get?]
  by_cases h : id = other
  · rw [if_pos h, ← h, Array.getElem?_setIfInBounds_self_of_lt hroom]
    rfl
  · have hindex : id.index ≠ other.index := by
      intro heq
      cases id
      cases other
      exact h (congrArg TemplateId.mk heq)
    rw [if_neg h, Array.getElem?_setIfInBounds_ne hindex]

/-- An identity that is not taken is given its entry, once there is room for it. -/
theorem install_new (h : t.get? id = none) (e : Template) :
    install id e t = .ok () ((t.reserve id).fill id e) := by
  simp only [install, get?_reserve, h]

/-- **An entry that is refused leaves the table as it was.** -/
theorem install_twice (h : t.get? id = some existing) (e : Template) : install id e t
    = .error (.invalidCircuit (.templateTwice id existing.shape.name e.shape.name)) t := by
  simp only [install, reserve_eq h, h]

/-- The table that an entry leaves, refused or not. -/
def after (t : TemplateTable) (call : TemplateId × Template) : TemplateTable :=
  match install call.1 call.2 t with
  | .ok _ t' => t'
  | .error _ t' => t'

/-- An identity finds what it found before, and if that was nothing, what was entered for it. -/
theorem get?_after (t : TemplateTable) (call : TemplateId × Template) (other : TemplateId) :
    (t.after call).get? other
      = (t.get? other).or (if call.1 = other then some call.2 else none) := by
  obtain ⟨id, e⟩ := call
  -- Taken or refused is decided by what the identity finds, so the cases are those of the answer.
  cases hold : t.get? id with
  | some existing =>
    simp only [after, install_twice hold]
    by_cases h : id = other
    · rw [← h, hold]
      rfl
    · rw [if_neg h, Option.or_none]
  | none =>
    have hroom : id.index < (t.reserve id).size := by
      rw [size_reserve]
      omega
    simp only [after, install_new hold]
    rw [get?_fill hroom, get?_reserve]
    by_cases h : id = other
    · rw [if_pos h, if_pos h, ← h, hold]
      rfl
    · rw [if_neg h, if_neg h, Option.or_none]

/-- The size after one more entry, whether or not it was taken. -/
theorem size_after (t : TemplateTable) (call : TemplateId × Template) :
    (t.after call).size = max t.size (call.1.index + 1) := by
  obtain ⟨id, e⟩ := call
  cases hold : t.get? id with
  | some existing =>
    have hlt := lt_size_of_get? hold
    simp only [after, install_twice hold]
    omega
  | none =>
    simp only [after, install_new hold]
    rw [size_fill, size_reserve]

/-! ## Many entries -/

/-- The table after some entries, one after another, some of them perhaps refused. -/
def entered (calls : List (TemplateId × Template)) : TemplateTable := calls.foldl after empty

/-- The identities for which there was an entry. -/
def given (calls : List (TemplateId × Template)) : Finset TemplateId :=
  (calls.map Prod.fst).toFinset

/-- The list has no first entry for an identity that is not among those given. -/
theorem lookup_eq_none_iff : calls.lookup id = none ↔ id ∉ given calls := by
  simp only [given, List.mem_toFinset, List.lookup_eq_none_iff, bne_iff_ne, List.mem_map]
  constructor
  · rintro h ⟨call, hcall, rfl⟩
    exact h call hcall rfl
  · rintro h call hcall rfl
    exact h ⟨call, hcall, rfl⟩

/-- And it has one for each that is. -/
theorem isSome_lookup : (calls.lookup id).isSome = true ↔ id ∈ given calls := by
  rw [← not_iff_not, ← lookup_eq_none_iff, Option.not_isSome_iff_eq_none]

/-- A table finds what was entered first, and has slots up to the highest identity. -/
structure Reflects (t : TemplateTable) (calls : List (TemplateId × Template)) : Prop where
  get? : ∀ id, t.get? id = calls.lookup id
  size : t.size = (given calls).sup fun id => id.index + 1

namespace Reflects

/-- The step: one more entry, taken or refused, keeps the table in accordance with the list. -/
theorem after (h : t.Reflects calls) (call : TemplateId × Template) :
    (t.after call).Reflects (calls ++ [call]) where
  get? other := by
    rw [get?_after, h.get?, List.lookup_append, List.lookup_cons, List.lookup_nil]
    by_cases he : call.1 = other
    · rw [if_pos he, he, BEq.rfl]
    · rw [if_neg he, beq_false_of_ne (Ne.symm he)]
  size := by
    have hgiven : given (calls ++ [call]) = given calls ∪ {call.1} := by simp [given]
    rw [size_after, h.size, hgiven, Finset.sup_union, Finset.sup_singleton]

/-- In such a table, the filled slots are those of the given identities. -/
theorem isSome_get? (h : t.Reflects calls) : (t.get? id).isSome = true ↔ id ∈ given calls := by
  rw [h.get?, isSome_lookup]

/-- Each of which is below the size. -/
theorem lt_size (h : t.Reflects calls) (hid : id ∈ given calls) : id.index < t.size := by
  obtain ⟨e, he⟩ := Option.isSome_iff_exists.mp (h.isSome_get?.mpr hid)
  exact lt_size_of_get? he

/-- An entry is refused if there was one for the identity, with the names of both and no change. -/
theorem install_error_iff (h : t.Reflects calls) {t' : TemplateTable} :
    install id e t = .error r t' ↔ ∃ first, calls.lookup id = some first ∧
      r = .invalidCircuit (.templateTwice id first.shape.name e.shape.name) ∧ t' = t := by
  rw [← h.get?]
  cases hold : t.get? id with
  | some existing =>
    rw [install_twice hold]
    simp [eq_comm]
  | none =>
    rw [install_new hold]
    simp

/-- The alternates are counted once for each identity, at its first entry. -/
theorem alternateCount (h : t.Reflects calls) : t.alternateCount
    = ((given calls).filter fun id =>
        (calls.lookup id).any fun e => e.alternate.isSome).card := by
  rw [alternateCount_eq]
  congr 1
  ext id
  simp only [Finset.mem_filter, List.mem_toFinset, mem_identities, h.get?]
  constructor
  · rintro ⟨-, hany⟩
    obtain ⟨e, he, -⟩ := (Option.any_eq_true _ _).mp hany
    exact ⟨isSome_lookup.mp (Option.isSome_of_eq_some he), hany⟩
  · rintro ⟨hid, hany⟩
    exact ⟨h.lt_size hid, hany⟩

/-- The table is complete if the identities below its size have all been given. -/
theorem validate_ok_iff (h : t.Reflects calls) :
    t.validate = .ok () ↔ ∀ i, ⟨i⟩ ∈ given calls ↔ i < t.size := by
  simp only [validate_iff, h.isSome_get?]
  constructor
  · intro hall i
    exact ⟨fun hi => h.lt_size hi, hall i⟩
  · intro hall i hi
    exact (hall i).mpr hi

/-- If it is not, validation names the least that is missing. -/
theorem validate_error_iff (h : t.Reflects calls) : t.validate = .error r ↔
    ∃ i < t.size, IsLeast {i | ⟨i⟩ ∉ given calls} i ∧
      r = .invalidCircuit (.missingTemplate ⟨i⟩) := by
  rw [TemplateTable.validate_error_iff]
  simp only [gap?_eq_some_iff, h.get?, isSome_lookup, lookup_eq_none_iff]
  constructor
  · rintro ⟨⟨i⟩, ⟨hi, hfree, hbelow⟩, rfl⟩
    refine ⟨i, hi, ⟨hfree, fun j hj => ?_⟩, rfl⟩
    by_contra hlt
    exact hj (hbelow j (Nat.not_le.mp hlt))
  · rintro ⟨i, hi, ⟨hfree, hleast⟩, rfl⟩
    refine ⟨⟨i⟩, ⟨hi, hfree, fun j hj => ?_⟩, rfl⟩
    by_contra hnot
    exact absurd (hleast hnot) (Nat.not_le.mpr hj)

end Reflects

/-- The induction: whatever the entries were, the table is in accordance with them. -/
theorem reflects_entered (calls : List (TemplateId × Template)) :
    (entered calls).Reflects calls := by
  -- The last entry is the one that meets a table of which something is known.
  induction calls using List.reverseRecOn with
  | nil => exact ⟨fun _ => rfl, rfl⟩
  | append_singleton calls call ih =>
    have hlast : entered (calls ++ [call]) = (entered calls).after call := List.foldl_concat ..
    rw [hlast]
    exact ih.after call

/-- **What a table makes of any sequence of entries.**  Templates are entered one after another into
    an empty table, in any order of their identities and with identities repeated; `calls` are the
    entries so far.

    * The next entry is refused exactly if there was one for its identity before.
    * What is refused leaves the table as it was, slots included, and the refusal names the first
      template of that identity.
    * An identity finds the first template that was entered for it, and nothing if there was none.
    * The size is one more than the highest identity given, and zero if none was.
    * Alternate bodies are counted once for each identity, by the template that was first.
    * The table is complete exactly if the identities given are those below its size.  Otherwise the
      lowest missing one is named. -/
theorem entered_lawful (calls : List (TemplateId × Template)) :
    (∀ id e, (∃ r t, install id e (entered calls) = .error r t) ↔ id ∈ given calls) ∧
    (∀ id e r t, install id e (entered calls) = .error r t ↔
      ∃ first, calls.lookup id = some first ∧
        r = .invalidCircuit (.templateTwice id first.shape.name e.shape.name) ∧
        t = entered calls) ∧
    (∀ id, (entered calls).get? id = calls.lookup id) ∧
    (∀ id, (entered calls).get? id = none ↔ id ∉ given calls) ∧
    (entered calls).size = ((given calls).sup fun id => id.index + 1) ∧
    (entered calls).alternateCount
      = ((given calls).filter fun id => (calls.lookup id).any fun e => e.alternate.isSome).card ∧
    ((entered calls).validate = .ok () ↔ ∀ i, ⟨i⟩ ∈ given calls ↔ i < (entered calls).size) ∧
    (∀ r, (entered calls).validate = .error r ↔
      ∃ i < (entered calls).size, IsLeast {i | ⟨i⟩ ∉ given calls} i ∧
        r = .invalidCircuit (.missingTemplate ⟨i⟩)) := by
  have h := reflects_entered calls
  refine ⟨fun id e => ?_, fun id e r t => h.install_error_iff, h.get?, fun id => ?_, h.size,
    h.alternateCount, h.validate_ok_iff, fun r => h.validate_error_iff⟩
  · rw [← isSome_lookup, Option.isSome_iff_exists]
    constructor
    · rintro ⟨r, t, herror⟩
      obtain ⟨first, hfirst, -⟩ := h.install_error_iff.mp herror
      exact ⟨first, hfirst⟩
    · rintro ⟨first, hfirst⟩
      exact ⟨_, _, h.install_error_iff.mpr ⟨first, hfirst, rfl, rfl⟩⟩
  · rw [h.get?, lookup_eq_none_iff]

/-- Identity 1 is given, given again in vain, and then 0: until then a template is missing. -/
example (a b c : Template) :
    [[(⟨1⟩, a)], [(⟨1⟩, a), (⟨1⟩, b)], [(⟨1⟩, a), (⟨1⟩, b), (⟨0⟩, c)]].map
      (fun calls => (entered calls).gap?) = [some ⟨0⟩, some ⟨0⟩, none] := by cbv

end CircuitWitness.TemplateTable
