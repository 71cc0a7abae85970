import Mathlib.Algebra.Ring.Int.Defs
import Mathlib.Data.List.Forall2
import CircuitWitness.Input.Document
/-
  What a document says about inputs.

  A document is an object, and its members become the entries of an assignment.  No member is lost
  on the way as long as no name comes twice, since a name that comes again replaces what it had.
  The reader sees to that: it enters each member at the place of its key, so the keys of an object
  rise, whatever the text.

  This is one of the two things that are to be said of all that is read, at any depth; the other one
  is that integers fit a 64-bit word (`Json.Value.WellFormed`, `Json.wellFormed_read?`).  The
  numbers take a walk through their own reader; for everything else one induction goes over the
  three readers of values, items and members at once.
-/

namespace CircuitWitness

namespace Json

/-- If a value is read, it has a property. -/
def Gives (P : Value → Prop) (result : Option (Value × List Char)) : Prop :=
  ∀ v rest, result = some (v, rest) → P v

namespace Gives

variable {P : Value → Prop}

/-- How what is read is put together: nothing is read, -/
theorem none : Gives P none := fun _ _ h => by cases h

/-- or a value, of which the property has to hold, -/
theorem some {v : Value} {rest : List Char} (h : P v) : Gives P (some (v, rest)) :=
  fun _ _ he => by
    cases he
    exact h

/-- or a value made of something that was read. -/
theorem map {α : Type} {f : α → Value × List Char} (h : ∀ a, P (f a).1) (result : Option α) :
    Gives P (result.map f) := by
  cases result with
  | none => exact .none
  | some a => exact .some (h a)

end Gives

/-! ## Numbers -/

/-- A number of one of the two kinds; an integer has to fit a signed or unsigned 64-bit word. -/
def Value.IsNumber : Value → Prop
  | .integer n => -2 ^ 63 ≤ n ∧ n < 2 ^ 64
  | .real _ => True
  | .null | .bool _ | .text _ | .array _ | .object _ => False

namespace Number

variable {negative : Bool} {significand : Nat} {exponent : Int} {cs : List Char}

/-- Each part of the reader gives a number: behind the mark it is a real one, -/
theorem numeric_afterMark? :
    Gives Value.IsNumber (afterMark? negative significand exponent cs) := by
  unfold afterMark?
  dsimp only
  split
  · exact .none
  split
  · exact .none
  split
  · exact .map (fun _ => trivial) _
  -- Where the exponent does not fit, the three signs lead to nothing or to a zero.
  · split <;> split <;> first | exact .none | exact .some trivial

theorem numeric_finish? : Gives Value.IsNumber (finish? negative significand exponent cs) := by
  unfold finish?
  split
  · exact numeric_afterMark?
  · exact numeric_afterMark?
  · exact .map (fun _ => trivial) _

theorem numeric_fraction? : Gives Value.IsNumber (fraction? negative significand exponent cs) := by
  fun_induction fraction? negative significand exponent cs with
  | case1 => exact numeric_finish?
  | case2 => exact numeric_finish?
  | case3 _ _ _ _ _ _ _ ih => exact ih
  | case4 => exact numeric_finish?

/-- and behind the point there is a digit at least. -/
theorem numeric_afterPoint? :
    Gives Value.IsNumber (afterPoint? negative significand exponent cs) := by
  unfold afterPoint?
  split
  · exact .none
  split
  · exact .none
  · exact numeric_fraction?

/-- Too many digits make a real number. -/
theorem numeric_long? : Gives Value.IsNumber (long? negative significand exponent cs) := by
  fun_induction long? negative significand exponent cs with
  | case1 => exact numeric_finish?
  | case2 _ _ _ _ ih => exact ih
  | case3 => exact numeric_afterPoint?
  | case4 => exact numeric_finish?

/-- An integer that is written without its sign fits a word if its digits do. -/
theorem isNumber_whole (h : significand < UInt64.size) : (whole negative significand).IsNumber := by
  have hsize : UInt64.size = 2 ^ 64 := rfl
  unfold whole
  split
  · show -2 ^ 63 ≤ (significand : Int) ∧ (significand : Int) < 2 ^ 64
    omega
  split
  · rename_i hsmall
    have hhalf : 1 <<< 63 = 2 ^ 63 := rfl
    show -2 ^ 63 ≤ -(significand : Int) ∧ -(significand : Int) < 2 ^ 64
    omega
  · exact trivial

/-- Few enough may end as an integer. -/
theorem numeric_afterWhole? (h : significand < UInt64.size) :
    Gives Value.IsNumber (afterWhole? negative significand cs) := by
  unfold afterWhole?
  split
  · exact numeric_afterPoint?
  · exact numeric_afterMark?
  · exact numeric_afterMark?
  · intro v rest hv
    cases hv
    exact isNumber_whole h

/-- The significand stays within a word as long as digits fit. -/
theorem numeric_digits? (h : significand < UInt64.size) :
    Gives Value.IsNumber (digits? negative significand cs) := by
  fun_induction digits? negative significand cs with
  | case1 => exact numeric_afterWhole? h
  | case2 => exact numeric_afterWhole? h
  | case3 _ _ _ _ _ hfits ih => exact ih (of_decide_eq_true hfits)
  | case4 => exact numeric_long?

theorem numeric_unsigned? : Gives Value.IsNumber (unsigned? negative cs) := by
  unfold unsigned?
  split
  · exact .none
  · split
    · split
      · exact .none
      · exact numeric_afterWhole? (by decide)
    · exact numeric_afterWhole? (by decide)
  · intro v rest h
    obtain ⟨d, hd, hrest⟩ := Option.bind_eq_some_iff.mp h
    have hsmall : d < UInt64.size := Nat.lt_trans (Text.digit?_lt hd) (by decide)
    exact numeric_digits? hsmall v rest hrest

/-- The reader of numbers reads numbers. -/
theorem numeric_read? : Gives Value.IsNumber (read? cs) := by
  unfold read?
  split <;> exact numeric_unsigned?

end Number

/-! ## Objects -/

variable {members : List (String × Value)} {key : String} {value : Value}

/-- The keys of some members rise, so no two are the same. -/
def Rising (members : List (String × Value)) : Prop :=
  (members.map Prod.fst).Pairwise (· < ·)

/-- Keys that rise differ from one another. -/
theorem Rising.nodup (h : Rising members) : (members.map Prod.fst).Nodup := by
  refine List.Pairwise.imp (fun {k k'} hlt => ?_) h
  rintro rfl
  exact String.lt_irrefl k hlt

/-- A member that is entered is the new one or one of the old ones. -/
theorem of_mem_insertMember {m : String × Value} (h : m ∈ insertMember key value members) :
    m = (key, value) ∨ m ∈ members := by
  induction members with
  | nil => exact .inl (List.mem_singleton.mp h)
  | cons first members ih =>
    obtain ⟨k, v⟩ := first
    unfold insertMember at h
    split at h
    · exact (List.mem_cons.mp h).imp_right fun h => List.mem_cons_of_mem _ h
    split at h
    · exact List.mem_cons.mp h
    · rcases List.mem_cons.mp h with h | h
      · exact .inr (List.mem_cons.mpr (.inl h))
      · exact (ih h).imp_right fun h => List.mem_cons_of_mem _ h

/-- A member is entered at the place of its key. -/
theorem Rising.insertMember (h : Rising members) : Rising (insertMember key value members) := by
  induction members with
  | nil => exact List.pairwise_singleton _ _
  | cons m members ih =>
    obtain ⟨k, v⟩ := m
    obtain ⟨hfirst, hrest⟩ := List.pairwise_cons.mp h
    unfold Json.insertMember
    split
    · rename_i he
      subst he
      exact h
    split
    · rename_i hlt
      refine List.pairwise_cons.mpr ⟨fun k' hk' => ?_, h⟩
      rcases List.mem_cons.mp hk' with rfl | hk'
      · exact hlt
      · exact String.lt_trans hlt (hfirst k' hk')
    · rename_i hne hle
      have hlt : k < key := Std.lt_of_le_of_ne (String.not_lt.mp hle) (Ne.symm hne)
      refine List.pairwise_cons.mpr ⟨fun k' hk' => ?_, ih hrest⟩
      obtain ⟨m, hm, rfl⟩ := List.mem_map.mp hk'
      rcases of_mem_insertMember hm with rfl | hm
      · exact hlt
      · exact hfirst m.1 (List.mem_map_of_mem hm)

/-! ## Documents -/

/-- Integers fit a 64-bit word, and the keys of objects rise, at any depth. -/
inductive Value.WellFormed : Value → Prop
  | null : WellFormed .null
  | bool (b : Bool) : WellFormed (.bool b)
  | number {v : Value} (h : v.IsNumber) : WellFormed v
  | text (s : String) : WellFormed (.text s)
  | array {items : List Value} (h : ∀ v ∈ items, v.WellFormed) : WellFormed (.array items)
  | object {members : List (String × Value)} (hrising : Rising members)
      (h : ∀ m ∈ members, m.2.WellFormed) : WellFormed (.object members)

/-- What well-formedness says of an integer, -/
theorem Value.WellFormed.integer {n : Int} (h : (Value.integer n).WellFormed) :
    -2 ^ 63 ≤ n ∧ n < 2 ^ 64 := by
  cases h with
  | number h => exact h

/-- and of an object. -/
theorem Value.WellFormed.object_iff :
    (Value.object members).WellFormed ↔ Rising members ∧ ∀ m ∈ members, m.2.WellFormed := by
  constructor
  · intro h
    cases h with
    | number h => exact absurd h id
    | object hrising h => exact ⟨hrising, h⟩
  · exact fun ⟨hrising, h⟩ => .object hrising h

variable {fuel depth : Nat} {items : List Value} {cs rest : List Char}

/-- With so much fuel, what is read is well formed if what came before it is. -/
structure Reads (fuel : Nat) : Prop where
  value : ∀ {depth cs}, Gives Value.WellFormed (value? fuel depth cs)
  items : ∀ {depth items cs}, (∀ v ∈ items, v.WellFormed) →
    Gives Value.WellFormed (items? fuel depth items cs)
  members : ∀ {depth members cs}, (Value.object members).WellFormed →
    Gives Value.WellFormed (members? fuel depth members cs)

namespace Reads

/-- One more unit of fuel: the three parts of the reader call one another with one unit less. -/
theorem value_succ (h : Reads fuel) : Gives Value.WellFormed (value? (fuel + 1) depth cs) := by
  unfold value?
  split
  · exact .none
  -- The three words and a text.
  split
  · exact .map (fun _ => .null) _
  split
  · exact .map (fun _ => .bool true) _
  split
  · exact .map (fun _ => .bool false) _
  split
  · exact .map (fun p => .text p.1) _
  split
  · split
    · exact .none
    split
    · exact .some (.array nofun)
    · exact h.items nofun
  split
  · split
    · exact .none
    split
    · exact .some (.object .nil nofun)
    · exact h.members (.object .nil nofun)
  · exact fun v rest hv => .number (Number.numeric_read? v rest hv)

theorem items_succ (h : Reads fuel) (hitems : ∀ v ∈ items, v.WellFormed) :
    Gives Value.WellFormed (items? (fuel + 1) depth items cs) := by
  unfold items?
  split
  · exact .none
  rename_i v rest hv
  have hnext : ∀ w ∈ v :: items, w.WellFormed :=
    List.forall_mem_cons.mpr ⟨h.value v rest hv, hitems⟩
  split
  · exact h.items hnext
  · exact .some (.array fun w hw => hnext w (List.mem_reverse.mp hw))
  · exact .none

/-- An object with one more member is one. -/
theorem object_insertMember (key : String) (hmembers : (Value.object members).WellFormed)
    (hvalue : value.WellFormed) : (Value.object (insertMember key value members)).WellFormed := by
  obtain ⟨hrising, hall⟩ := Value.WellFormed.object_iff.mp hmembers
  refine .object hrising.insertMember fun m hm => ?_
  rcases of_mem_insertMember hm with rfl | hm
  · exact hvalue
  · exact hall m hm

theorem members_succ (h : Reads fuel) (hmembers : (Value.object members).WellFormed) :
    Gives Value.WellFormed (members? (fuel + 1) depth members cs) := by
  unfold members?
  split
  case h_2 => exact .none
  split
  · exact .none
  split
  case h_2 => exact .none
  split
  · exact .none
  rename_i v rest hv
  have hnext := fun key => object_insertMember key hmembers (h.value v rest hv)
  split
  · exact h.members (hnext _)
  · exact .some (hnext _)
  · exact .none

end Reads

/-- The induction on the fuel, for the three of them together. -/
theorem reads (fuel : Nat) : Reads fuel := by
  induction fuel with
  | zero => exact ⟨.none, fun _ => .none, fun _ => .none⟩
  | succ fuel ih => exact ⟨ih.value_succ, ih.items_succ, ih.members_succ⟩

/-- **Every document that is read is well formed**, whatever its text. -/
theorem wellFormed_read? {text : String} {v : Value} (h : Value.read? text = some v) :
    v.WellFormed := by
  unfold Value.read? at h
  dsimp only at h
  split at h
  · rename_i w rest hw
    split at h
    · cases h
      exact (reads _).value _ _ hw
    · cases h
  · cases h

/-- **An object is read with rising keys**, whatever the order of its members in the text, and
    however often it names one. -/
theorem rising_read? {text : String} (h : Value.read? text = some (.object members)) :
    Rising members :=
  (Value.WellFormed.object_iff.mp (wellFormed_read? h)).1

end Json

/-! ## Traversals

  A list is gone through up to the first element that fails. -/

section Traversal

variable {α β ε : Type} {f : α → Except ε β} {x : α} {xs : List α} {y : β} {ys : List β} {e : ε}

/-- A traversal by its first element: it goes on, -/
theorem mapM_cons_ok (hx : f x = .ok y) : (x :: xs).mapM f = (xs.mapM f).map (y :: ·) := by
  rw [List.mapM_cons, hx]
  show (xs.mapM f >>= fun ys => pure (y :: ys)) = _
  cases xs.mapM f <;> rfl

/-- or it stops there. -/
theorem mapM_cons_error (hx : f x = .error e) : (x :: xs).mapM f = .error e := by
  rw [List.mapM_cons, hx]
  rfl

/-- A traversal succeeds if it succeeds at every element. -/
theorem mapM_ok_iff : xs.mapM f = .ok ys ↔ List.Forall₂ (fun x y => f x = .ok y) xs ys := by
  induction xs generalizing ys with
  | nil =>
    rw [List.mapM_nil, List.forall₂_nil_left_iff]
    exact ⟨fun h => (Except.ok.inj h).symm, fun h => h ▸ rfl⟩
  | cons x xs ih =>
    rw [List.forall₂_cons_left_iff]
    cases hx : f x with
    | error e =>
      rw [mapM_cons_error hx]
      exact ⟨nofun, fun ⟨_, _, hy, _⟩ => by cases hy⟩
    | ok y =>
      rw [mapM_cons_ok hx]
      simp only [← ih]
      cases xs.mapM f with
      | error e => exact ⟨nofun, fun ⟨_, _, _, hys, _⟩ => by cases hys⟩
      | ok ys' =>
        constructor
        · rintro h
          cases h
          exact ⟨y, ys', rfl, rfl, rfl⟩
        · rintro ⟨_, _, ⟨⟩, ⟨⟩, rfl⟩
          rfl

/-- A traversal fails as it does at the first element at which it fails. -/
theorem mapM_error_iff : xs.mapM f = .error e ↔
    ∃ front x back, xs = front ++ x :: back ∧ (∀ y ∈ front, ∃ b, f y = .ok b) ∧
      f x = .error e := by
  induction xs with
  | nil =>
    rw [List.mapM_nil]
    exact ⟨nofun, fun ⟨front, x, back, h, _⟩ => absurd h (by simp)⟩
  | cons x xs ih =>
    cases hx : f x with
    | error e' =>
      rw [mapM_cons_error hx]
      constructor
      · rintro ⟨⟩
        exact ⟨[], x, xs, rfl, nofun, hx⟩
      · rintro ⟨_ | ⟨y, front⟩, z, back, ⟨⟩, hfront, hz⟩
        · cases hx.symm.trans hz
          rfl
        · obtain ⟨b, hb⟩ := hfront x (List.mem_cons_self ..)
          cases hx.symm.trans hb
    | ok y =>
      have hrest : (x :: xs).mapM f = .error e ↔ xs.mapM f = .error e := by
        rw [mapM_cons_ok hx]
        cases xs.mapM f with
        | error e' => exact Iff.rfl
        | ok ys => exact ⟨nofun, nofun⟩
      refine hrest.trans (ih.trans ⟨?_, ?_⟩)
      · rintro ⟨front, z, back, rfl, hfront, hz⟩
        exact ⟨x :: front, z, back, rfl, List.forall_mem_cons.mpr ⟨⟨y, hx⟩, hfront⟩, hz⟩
      · rintro ⟨_ | ⟨w, front⟩, z, back, ⟨⟩, hfront, hz⟩
        · cases hx.symm.trans hz
        · exact ⟨front, z, back, rfl, fun v hv => hfront v (List.mem_cons_of_mem _ hv), hz⟩

/-- The same, where it is known in other words at which elements it succeeds. -/
theorem mapM_error_iff_of_mem {S : α → Prop} (h : ∀ x ∈ xs, (∃ y, f x = .ok y) ↔ S x) :
    xs.mapM f = .error e ↔
      ∃ front x back, xs = front ++ x :: back ∧ (∀ y ∈ front, S y) ∧ f x = .error e := by
  rw [mapM_error_iff]
  refine exists₃_congr fun front x back => and_congr_right fun hxs => and_congr_left' ?_
  exact forall₂_congr fun y hy => h y (hxs ▸ List.mem_append_left _ hy)

/-- It succeeds unless there is an element at which it fails. -/
theorem exists_mapM_ok_iff : (∃ ys, xs.mapM f = .ok ys) ↔ ∀ x ∈ xs, ∃ y, f x = .ok y := by
  constructor
  · rintro ⟨ys, hys⟩ x hx
    have hall := mapM_ok_iff.mp hys
    obtain ⟨i, hi, rfl⟩ := List.getElem_of_mem hx
    exact ⟨_, hall.get hi (hall.length_eq ▸ hi)⟩
  · intro hall
    cases hxs : xs.mapM f with
    | ok ys => exact ⟨ys, rfl⟩
    | error e =>
      obtain ⟨front, x, back, rfl, -, hx⟩ := mapM_error_iff.mp hxs
      obtain ⟨y, hy⟩ := hall x (List.mem_append_right _ (List.mem_cons_self ..))
      cases hx.symm.trans hy

/-- Relations that agree on the elements of a list agree on the list. -/
theorem forall₂_congr_of_mem {R S : α → β → Prop} (h : ∀ x ∈ xs, ∀ y, R x y ↔ S x y) :
    List.Forall₂ R xs ys ↔ List.Forall₂ S xs ys := by
  induction xs generalizing ys with
  | nil => rw [List.forall₂_nil_left_iff, List.forall₂_nil_left_iff]
  | cons x xs ih =>
    have hxs : ∀ ys, List.Forall₂ R xs ys ↔ List.Forall₂ S xs ys := fun _ =>
      ih fun x' hx' => h x' (List.mem_cons_of_mem _ hx')
    simp only [List.forall₂_cons_left_iff, h x (List.mem_cons_self ..), hxs]

end Traversal

/-! ## From members to entries -/

namespace InputValues

variable {a a' : InputValues} {members : List (String × Json.Value)} {name : String}

/-- A name that is given for the first time comes last. -/
theorem entries_insert (h : name ∉ a.entries.map Prod.fst) (values : List Scalar) :
    (a.insert name values).entries = a.entries ++ [(name, values)] := by
  have hnone : (a.entries.find? fun e => e.1 == name) = none := by
    rw [List.find?_eq_none]
    rintro e he heq
    exact h (List.mem_map.mpr ⟨e, he, beq_iff_eq.mp heq⟩)
  unfold insert get?
  rw [hnone, Option.map_none, if_neg (by simp)]

/-- The entry that a member of a document becomes. -/
def entryOf (m : String × Json.Value) : Except Refusal (String × List Scalar) :=
  match m.2.flatten with
  | .ok values => .ok (m.1, values)
  | .error leaf => .error (.invalidInputValue m.1 leaf.compact)

/-- To enter a member is to make an entry of it and to insert that. -/
theorem insertMember_eq (a : InputValues) (m : String × Json.Value) :
    a.insertMember m = (entryOf m).map fun e => a.insert e.1 e.2 := by
  unfold insertMember entryOf
  cases m.2.flatten <;> rfl

/-- A member becomes an entry if its value is flattened. -/
theorem entryOf_ok_iff {m : String × Json.Value} {e : String × List Scalar} :
    entryOf m = .ok e ↔ e.1 = m.1 ∧ m.2.flatten = .ok e.2 := by
  obtain ⟨name, values⟩ := e
  unfold entryOf
  cases m.2.flatten with
  | ok values' => simp [eq_comm]
  | error leaf => simp

/-- Otherwise its name is reported, with the leaf that offends. -/
theorem entryOf_error_iff {m : String × Json.Value} {r : Refusal} :
    entryOf m = .error r ↔
      ∃ leaf, m.2.flatten = .error leaf ∧ r = .invalidInputValue m.1 leaf.compact := by
  unfold entryOf
  cases m.2.flatten with
  | ok values => simp
  | error leaf => simp [eq_comm]

/-- Members of different names become entries, one after another, after the entries that were
    there; the first that does not become one is refused. -/
theorem insertMembers_eq (hnodup : (a.entries.map Prod.fst ++ members.map Prod.fst).Nodup) :
    members.foldlM insertMember a
      = (members.mapM entryOf).map fun entries => ⟨a.entries ++ entries⟩ := by
  induction members generalizing a with
  | nil =>
    rw [List.mapM_nil]
    show Except.ok a = .ok ⟨a.entries ++ []⟩
    rw [List.append_nil]
  | cons m members ih =>
    rw [List.foldlM_cons, insertMember_eq]
    cases hm : entryOf m with
    | error r =>
      rw [mapM_cons_error hm]
      rfl
    | ok e =>
      obtain ⟨hname, -⟩ := entryOf_ok_iff.mp hm
      have hnew : e.1 ∉ a.entries.map Prod.fst := fun hin =>
        (List.nodup_append.mp hnodup).2.2 _ hin _ (hname ▸ List.mem_cons_self ..) rfl
      have hentries := entries_insert hnew e.2
      have hrest := ih (a := a.insert e.1 e.2) (by
        rw [hentries, List.map_append, List.append_assoc]
        show (_ ++ (e.1 :: members.map Prod.fst)).Nodup
        rw [hname]
        exact hnodup)
      rw [mapM_cons_ok hm]
      refine hrest.trans ?_
      rw [hentries]
      cases members.mapM entryOf with
      | error r => rfl
      | ok entries =>
        show Except.ok (InputValues.mk _) = .ok (InputValues.mk _)
        rw [List.append_assoc]
        rfl

/-- **The members of a document become its entries**, in their order. -/
theorem ofJson_object {text : String}
    (hread : Json.Value.read? text = some (.object members)) :
    ofJson text = (members.mapM entryOf).map fun entries => ⟨entries⟩ := by
  have hnodup : ((empty : InputValues).entries.map Prod.fst ++ members.map Prod.fst).Nodup :=
    (Json.rising_read? hread).nodup
  unfold ofJson
  rw [hread]
  exact insertMembers_eq hnodup

/-- So every member becomes an entry, with the scalars of its value. -/
theorem of_ofJson {text : String} (h : ofJson text = .ok a)
    (hread : Json.Value.read? text = some (.object members)) :
    ∀ m ∈ members, ∃ values, m.2.flatten = .ok values ∧ (m.1, values) ∈ a.entries := by
  rw [ofJson_object hread] at h
  cases hmapM : members.mapM entryOf with
  | error r =>
    rw [hmapM] at h
    cases h
  | ok entries =>
    rw [hmapM] at h
    cases h
    have hentries := mapM_ok_iff.mp hmapM
    intro m hm
    obtain ⟨i, hi, rfl⟩ := List.getElem_of_mem hm
    have hi' : i < entries.length := hentries.length_eq ▸ hi
    obtain ⟨hname, hvalues⟩ := entryOf_ok_iff.mp (hentries.get hi hi')
    have hentry : entries[i] = (members[i].1, entries[i].2) := Prod.ext hname rfl
    exact ⟨entries[i].2, hvalues, hentry ▸ List.getElem_mem hi'⟩

end InputValues
end CircuitWitness
