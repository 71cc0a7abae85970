import CircuitWitness.Proofs.Compact
import CircuitWitness.Proofs.Document
import CircuitWitness.Proofs.Scalar.Literal
import CircuitWitness.Proofs.Utf8
/-
  Documents, flattened.

  Under a value lie its leaves: whatever is met that is no array, when one goes down through arrays
  and arrays in arrays, from left to right.  A leaf stands for a scalar, or it offends.  The members
  of a document become entries if no leaf of theirs offends, and then the values of an entry are
  what the leaves stand for, one by one.  Otherwise the first offence is reported, in the first
  member that has one.

  That arrays and members are gone through up to the first failure is the same argument both times:
  flattening a value is a traversal of its leaves (`Json.Value.flatten_eq`), and reading a document
  is a traversal of its members (`InputValues.ofJson_object`).
-/

namespace CircuitWitness

namespace Json

/-! ## Leaves -/

mutual

/-- What lies under a value and is no array, from left to right. -/
def Value.leaves : Value → List Value
  | .array items => leavesOf items
  | leaf => [leaf]

/-- The leaves of some values, one after another. -/
def leavesOf : List Value → List Value
  | [] => []
  | v :: rest => v.leaves ++ leavesOf rest

end

/-- No array. -/
def Value.IsLeaf : Value → Prop
  | .array _ => False
  | _ => True

/-- What a leaf may stand for: a literal for what it is read as, an integer for its residue, a truth
    value for one or zero. -/
inductive Value.Stands : Value → Scalar → Prop
  | text {s : String} {a : Scalar} (h : Scalar.ofLiteral? s = some a) : Stands (.text s) a
  | integer {n : Int} {a : Scalar} (hlow : -2 ^ 63 ≤ n) (hhigh : n < 2 ^ 64)
      (h : (a.val : Int) = n % Scalar.modulus) : Stands (.integer n) a
  | bool (b : Bool) : Stands (.bool b) (if b then 1 else 0)

/-- What no leaf may be. -/
inductive Value.Offends : Value → Prop
  | null : Offends .null
  | object (members : List (String × Value)) : Offends (.object members)
  | real (x : Float) : Offends (.real x)
  | text {s : String} (h : Scalar.ofLiteral? s = none) : Offends (.text s)

variable {v leaf : Value} {items : List Value} {a : Scalar} {values : List Scalar}

theorem mem_leavesOf : leaf ∈ leavesOf items ↔ ∃ v ∈ items, leaf ∈ v.leaves := by
  induction items with
  | nil => simp [leavesOf]
  | cons v items ih =>
    rw [leavesOf, List.mem_append, ih]
    simp

namespace Value

theorem leaves_of_isLeaf (h : leaf.IsLeaf) : leaf.leaves = [leaf] := by
  cases leaf with
  | array items => exact absurd h id
  | null | bool | integer | real | text | object => rfl

/-- Leaves are no arrays, and as well formed as what they lie under. -/
theorem WellFormed.of_leaves (h : v.WellFormed) :
    ∀ leaf ∈ v.leaves, leaf.WellFormed ∧ leaf.IsLeaf := by
  have hself : ∀ {v : Value}, v.WellFormed → v.IsLeaf →
      ∀ leaf ∈ v.leaves, leaf.WellFormed ∧ leaf.IsLeaf := by
    intro v hv hleaf leaf hmem
    rw [leaves_of_isLeaf hleaf] at hmem
    rw [List.mem_singleton.mp hmem]
    exact ⟨hv, hleaf⟩
  induction h with
  | null => exact hself .null trivial
  | bool b => exact hself (.bool b) trivial
  | @number v h =>
    refine hself (.number h) ?_
    cases v with
    | array items => exact h
    | null | bool | integer | real | text | object => exact trivial
  | text s => exact hself (.text s) trivial
  | array _ ih =>
    intro leaf hmem
    obtain ⟨v, hv, hmem⟩ := mem_leavesOf.mp hmem
    exact ih v hv leaf hmem
  | object hrising hall => exact hself (.object hrising hall) trivial

/-- An integer is its residue, whatever its sign. -/
theorem scalar?_integer (n : Int) : (Value.integer n).scalar? = some (Scalar.ofInt n) := by
  unfold scalar?
  dsimp only
  split
  · rename_i hneg
    have hn : n = -(n.natAbs : Int) := by omega
    conv_rhs => rw [hn]
    rw [Scalar.ofInt_neg, Scalar.ofInt_natCast]
  · rename_i hpos
    have hn : n = (n.natAbs : Int) := by omega
    conv_rhs => rw [hn]
    rw [Scalar.ofInt_natCast]

/-- What a leaf stands for is what the reader of scalars makes of it. -/
theorem stands_iff (h : v.WellFormed) : v.Stands a ↔ v.scalar? = some a := by
  constructor
  · rintro (⟨ha⟩ | ⟨-, -, ha⟩ | b)
    · exact ha
    · rw [scalar?_integer, Scalar.eq_ofInt_iff.mpr ha]
    · cases b <;> rfl
  · intro ha
    cases v with
    | text s => exact .text ha
    | integer n =>
      obtain ⟨hlow, hhigh⟩ := h.integer
      rw [scalar?_integer] at ha
      exact .integer hlow hhigh (Scalar.eq_ofInt_iff.mp (Option.some.inj ha).symm)
    | bool b =>
      have hb : Scalar.ofBool b = if b then 1 else 0 := by cases b <;> rfl
      obtain rfl := Option.some.inj ha
      rw [hb]
      exact .bool b
    | null | real | array | object => cases ha

theorem offends_iff (h : leaf.IsLeaf) : leaf.Offends ↔ leaf.scalar? = none := by
  constructor
  · rintro (_ | members | x | hs)
    · rfl
    · rfl
    · rfl
    · exact hs
  · intro hnone
    cases leaf with
    | null => exact .null
    | object members => exact .object members
    | real x => exact .real x
    | text s => exact .text hnone
    | array items => exact absurd h id
    | bool b => cases hnone
    | integer n => cases hnone

/-- An integer stands for what its text stands for. -/
theorem Stands.toString {n : Int} (h : (Value.integer n).Stands a) :
    (Value.text (toString n)).Stands a := by
  cases h with
  | integer _ _ h =>
    refine .text ?_
    rw [Scalar.eq_ofInt_iff.mpr h]
    cases n with
    | ofNat n => exact Scalar.Literal.ofLiteral?_repr n
    | negSucc n => exact Scalar.Literal.ofLiteral?_minus (n + 1)

end Value

/-! ## Flattening -/

/-- The scalar of a leaf, or the leaf. -/
def Value.element (leaf : Value) : Except Value Scalar :=
  match leaf.scalar? with
  | some a => .ok a
  | none => .error leaf

theorem Value.element_ok_iff : leaf.element = .ok a ↔ leaf.scalar? = some a := by
  unfold element
  cases leaf.scalar? <;> simp

theorem Value.element_error_iff : v.element = .error leaf ↔ v.scalar? = none ∧ v = leaf := by
  unfold element
  cases v.scalar? <;> simp

/-- A leaf is flattened to its scalar. -/
theorem Value.flatten_of_isLeaf (h : leaf.IsLeaf) :
    leaf.flatten = leaf.leaves.mapM Value.element := by
  have hflatten : leaf.flatten = match leaf.scalar? with
      | some a => .ok [a]
      | none => .error leaf := by
    cases leaf with
    | array items => exact absurd h id
    | null | bool | integer | real | text | object => rfl
  rw [hflatten, leaves_of_isLeaf h]
  cases hleaf : leaf.scalar? with
  | some a =>
    rw [mapM_cons_ok (element_ok_iff.mpr hleaf)]
    rfl
  | none => exact (mapM_cons_error (element_error_iff.mpr ⟨hleaf, rfl⟩)).symm

mutual

/-- **Flattening a value is a traversal of its leaves.** -/
theorem Value.flatten_eq : (v : Value) → v.flatten = v.leaves.mapM Value.element
  | .array items => by
    rw [Value.flatten, Value.leaves]
    exact flattenItems_eq items
  | .null | .bool _ | .integer _ | .real _ | .text _ | .object _ => Value.flatten_of_isLeaf trivial

theorem flattenItems_eq : (items : List Value) →
    flattenItems items = (leavesOf items).mapM Value.element
  | [] => rfl
  | v :: rest => by
    rw [flattenItems, leavesOf, List.mapM_append, Value.flatten_eq v, flattenItems_eq rest]
    cases v.leaves.mapM Value.element with
    | error leaf => rfl
    | ok front => cases (leavesOf rest).mapM Value.element <;> rfl

end

namespace Value

/-- A value is flattened to the scalars that its leaves stand for, one by one. -/
theorem flatten_ok_iff (h : v.WellFormed) :
    v.flatten = .ok values ↔ List.Forall₂ Stands v.leaves values := by
  rw [flatten_eq, mapM_ok_iff]
  exact forall₂_congr_of_mem fun leaf hleaf a =>
    element_ok_iff.trans (stands_iff (h.of_leaves leaf hleaf).1).symm

theorem exists_element_iff (h : leaf.WellFormed) :
    (∃ a, leaf.element = .ok a) ↔ ∃ a, leaf.Stands a := by
  simp only [element_ok_iff, stands_iff h]

/-- So it is flattened if all its leaves stand for a scalar. -/
theorem exists_flatten_iff (h : v.WellFormed) :
    (∃ values, v.flatten = .ok values) ↔ ∀ leaf ∈ v.leaves, ∃ a, leaf.Stands a := by
  rw [flatten_eq, exists_mapM_ok_iff]
  exact forall₂_congr fun leaf hleaf => exists_element_iff (h.of_leaves leaf hleaf).1

/-- The first leaf under a value that offends. -/
def FirstOffence (v leaf : Value) : Prop :=
  ∃ front back, v.leaves = front ++ leaf :: back ∧ (∀ w ∈ front, ∃ a, w.Stands a) ∧ leaf.Offends

/-- What stops the flattening is the first leaf that offends. -/
theorem flatten_error_iff (h : v.WellFormed) : v.flatten = .error leaf ↔ v.FirstOffence leaf := by
  have hisLeaf : ∀ {front back : List Value} {w : Value}, v.leaves = front ++ w :: back →
      w.IsLeaf := fun {_ _ w} hleaves =>
    (h.of_leaves w (hleaves ▸ List.mem_append_right _ (List.mem_cons_self ..))).2
  rw [flatten_eq, mapM_error_iff_of_mem fun w hw => exists_element_iff (h.of_leaves w hw).1]
  constructor
  · rintro ⟨front, w, back, hleaves, hfront, hw⟩
    obtain ⟨hnone, rfl⟩ := element_error_iff.mp hw
    exact ⟨front, back, hleaves, hfront, (offends_iff (hisLeaf hleaves)).mpr hnone⟩
  · rintro ⟨front, back, hleaves, hfront, hoffends⟩
    exact ⟨front, leaf, back, hleaves, hfront,
      element_error_iff.mpr ⟨(offends_iff (hisLeaf hleaves)).mp hoffends, rfl⟩⟩

end Value
end Json

namespace InputValues

open Json (Value)

variable {a : InputValues} {members : List (String × Value)} {name : String} {leaf : Value}

/-! ## Documents -/

/-- The entries are those of some members, in their order: each has the name of its member, and its
    values are what the leaves under the member's value stand for, one by one. -/
def Mirrors (a : InputValues) (members : List (String × Value)) : Prop :=
  List.Forall₂ (fun m e => e.1 = m.1 ∧ List.Forall₂ Value.Stands m.2.leaves e.2) members a.entries

/-- The first leaf that offends under the first member that has one. -/
def FirstOffence (members : List (String × Value)) (name : String) (leaf : Value) : Prop :=
  ∃ front value back, members = front ++ (name, value) :: back ∧
    (∀ m ∈ front, ∀ w ∈ m.2.leaves, ∃ b, w.Stands b) ∧ value.FirstOffence leaf

/-- A member becomes an entry if no leaf of its value offends. -/
theorem exists_entryOf_iff {m : String × Value} (h : m.2.WellFormed) :
    (∃ e, entryOf m = .ok e) ↔ ∀ w ∈ m.2.leaves, ∃ b, w.Stands b := by
  rw [← Value.exists_flatten_iff h]
  constructor
  · rintro ⟨e, he⟩
    exact ⟨e.2, (entryOf_ok_iff.mp he).2⟩
  · rintro ⟨values, hvalues⟩
    exact ⟨(m.1, values), entryOf_ok_iff.mpr ⟨rfl, hvalues⟩⟩

section

variable (hall : ∀ m ∈ members, m.2.WellFormed)

include hall

/-- The members become the entries that mirror them. -/
theorem mapM_entryOf_ok_iff : members.mapM entryOf = .ok a.entries ↔ a.Mirrors members := by
  rw [mapM_ok_iff]
  exact forall₂_congr_of_mem fun m hm e =>
    entryOf_ok_iff.trans (and_congr_right fun _ => Value.flatten_ok_iff (hall m hm))

theorem exists_mapM_entryOf_iff : (∃ entries, members.mapM entryOf = .ok entries) ↔
    ∀ m ∈ members, ∀ w ∈ m.2.leaves, ∃ b, w.Stands b := by
  rw [exists_mapM_ok_iff]
  exact forall₂_congr fun m hm => exists_entryOf_iff (hall m hm)

/-- If they do not, it is the first offence that is reported. -/
theorem mapM_entryOf_error_iff {r : Refusal} : members.mapM entryOf = .error r ↔
    ∃ name leaf, FirstOffence members name leaf ∧ r = .invalidInputValue name leaf.compact := by
  rw [mapM_error_iff_of_mem fun m hm => exists_entryOf_iff (hall m hm)]
  constructor
  · rintro ⟨front, ⟨name, value⟩, back, rfl, hfront, hm⟩
    obtain ⟨leaf, hleaf, rfl⟩ := entryOf_error_iff.mp hm
    have hvalue := hall _ (List.mem_append_right _ (List.mem_cons_self ..))
    exact ⟨name, leaf, ⟨front, value, back, rfl, hfront,
      (Value.flatten_error_iff hvalue).mp hleaf⟩, rfl⟩
  · rintro ⟨name, leaf, ⟨front, value, back, rfl, hfront, hleaf⟩, rfl⟩
    have hvalue := hall _ (List.mem_append_right _ (List.mem_cons_self ..))
    exact ⟨front, (name, value), back, rfl, hfront,
      entryOf_error_iff.mpr ⟨leaf, (Value.flatten_error_iff hvalue).mpr hleaf, rfl⟩⟩

end

/-- Only names and leaves count. -/
theorem mapM_entryOf_congr {members' : List (String × Value)}
    (h : List.Forall₂ (fun m m' => m.1 = m'.1 ∧ m.2.leaves = m'.2.leaves) members members') :
    members.mapM entryOf = members'.mapM entryOf := by
  induction h with
  | nil => rfl
  | @cons m m' _ _ hm _ ih =>
    obtain ⟨hname, hleaves⟩ := hm
    have hentry : entryOf m = entryOf m' := by
      unfold entryOf
      rw [Value.flatten_eq, Value.flatten_eq, hleaves, hname]
    rw [List.mapM_cons, List.mapM_cons, hentry, ih]

/-- A document is accepted with the entries that its members become. -/
theorem ofJson_ok_iff {text : String} (hread : Json.Value.read? text = some (.object members)) :
    ofJson text = .ok a ↔ members.mapM entryOf = .ok a.entries := by
  rw [ofJson_object hread]
  cases members.mapM entryOf with
  | error r => exact ⟨nofun, nofun⟩
  | ok entries =>
    constructor
    · rintro ⟨⟩
      rfl
    · rintro ⟨⟩
      rfl

/-- And it is refused, for the same reason, if one of them becomes none. -/
theorem ofJson_error_iff {text : String} {r : Refusal}
    (hread : Json.Value.read? text = some (.object members)) :
    ofJson text = .error r ↔ members.mapM entryOf = .error r := by
  rw [ofJson_object hread]
  cases members.mapM entryOf with
  | error r' => exact ⟨fun h => by cases h; rfl, fun h => by cases h; rfl⟩
  | ok entries => exact ⟨nofun, nofun⟩

/-- **Documents are flattened exactly.**  A document was read from a text.

    * If it is no object, it is refused, and the refusal says so.
    * The members of an object stand in the order of the bytes of their names.
    * It is accepted if and only if every leaf stands for a scalar, and then the entries are the
      names in this order, each with the scalars of its leaves, from left to right.
    * Otherwise the refusal names the first member with an offending leaf and shows the first such
      leaf: a null, an object, a number that is no 64-bit integer, or a text that is no literal.
      What it shows is the compact text that the leaf is printed as.
    * Only names and leaves count, so it does not matter how the leaves are grouped in arrays.
    * An integer counts as its decimal text does. -/
theorem ofJson_flattens {text : String} {document : Value}
    (hread : Json.Value.read? text = some document) :
    ((∀ members, document ≠ .object members) →
      ofJson text = .error (.invalidInputValue "<document>" "expected a JSON object")) ∧
    (∀ members, document = .object members →
      (members.map fun m => Text.bytes m.1).Pairwise (· < ·) ∧
      ((∃ a, ofJson text = .ok a) ↔ ∀ m ∈ members, ∀ leaf ∈ m.2.leaves, ∃ b, leaf.Stands b) ∧
      (∀ a, ofJson text = .ok a ↔ a.Mirrors members) ∧
      (∀ r, ofJson text = .error r ↔
        ∃ name leaf shown, FirstOffence members name leaf ∧ leaf.Prints shown ∧
          r = .invalidInputValue name shown) ∧
      ∀ text' members', Json.Value.read? text' = some (.object members') →
        List.Forall₂ (fun m m' => m.1 = m'.1 ∧ m.2.leaves = m'.2.leaves) members members' →
        ofJson text = ofJson text') ∧
    ∀ (n : Int) (b : Scalar), (Value.integer n).Stands b → (Value.text (toString n)).Stands b := by
  refine ⟨fun hno => ?_, fun members hobject => ?_, fun n b h => h.toString⟩
  · unfold ofJson
    rw [hread]
    cases document with
    | object members => exact absurd rfl (hno members)
    | null | bool | integer | real | text | array => rfl
  subst hobject
  obtain ⟨hrising, hall⟩ := Value.WellFormed.object_iff.mp (Json.wellFormed_read? hread)
  refine ⟨?_, ?_, fun a => ?_, fun r => ?_, fun text' members' hread' hsame => ?_⟩
  · exact List.pairwise_map.mpr ((List.pairwise_map.mp hrising).imp Text.bytes_lt)
  · rw [← exists_mapM_entryOf_iff hall]
    simp only [ofJson_ok_iff hread]
    exact ⟨fun ⟨a, ha⟩ => ⟨a.entries, ha⟩, fun ⟨entries, h⟩ => ⟨⟨entries⟩, h⟩⟩
  · exact (ofJson_ok_iff hread).trans (mapM_entryOf_ok_iff hall)
  · rw [ofJson_error_iff hread, mapM_entryOf_error_iff hall]
    simp only [Value.prints_iff, exists_and_left, exists_eq_left]
  · rw [ofJson_object hread, ofJson_object hread', mapM_entryOf_congr hsame]

/-- Arrays in arrays, members out of order, three kinds of leaves; the same leaves in other arrays;
    a document with two offences, of which the one under the smaller name is reported; an object and
    a text that are reported, with an escape in each; and a document that is no object. -/
theorem ofJson_flattens_nested :
    ofJson "\x7b\"b\":[[1,\"0x2\"],-1],\"a\":true\x7d"
      = .ok ⟨[("a", [1]), ("b", [1, 2, -1])]⟩ ∧
    ofJson "\x7b\"b\":[[1,\"0x2\"],-1],\"a\":true\x7d"
      = ofJson "\x7b\"a\":[[true]],\"b\":[1,[],[\"0x2\",-1]]\x7d" ∧
    ofJson "\x7b\"b\":\"x\",\"a\":[1,[null]]\x7d"
      = .error (.invalidInputValue "a" "null") ∧
    ofJson "\x7b\"a\": [2, \x7b\"n\": [-3, \"\\u000A\"], \"m\": \x7b\x7d\x7d]\x7d"
      = .error (.invalidInputValue "a" "\x7b\"m\":\x7b\x7d,\"n\":[-3,\"\\n\"]\x7d") ∧
    ofJson "\x7b\"a\": \"\\u001F\\/\"\x7d"
      = .error (.invalidInputValue "a" "\"\\u001f/\"") ∧
    ofJson "[1]" = .error (.invalidInputValue "<document>" "expected a JSON object") := by
  have hread : Json.Value.read? "\x7b\"b\":[[1,\"0x2\"],-1],\"a\":true\x7d"
      = some (.object [("a", .bool true),
        ("b", .array [.array [.integer 1, .text "0x2"], .integer (-1)])]) := by
    simp only [Json.Value.read?, String.reduceToList]
    rfl
  have hread' : Json.Value.read? "\x7b\"a\":[[true]],\"b\":[1,[],[\"0x2\",-1]]\x7d"
      = some (.object [("a", .array [.array [.bool true]]),
        ("b", .array [.integer 1, .array [], .array [.text "0x2", .integer (-1)]])]) := by
    simp only [Json.Value.read?, String.reduceToList]
    rfl
  have hnull : Json.Value.read? "\x7b\"b\":\"x\",\"a\":[1,[null]]\x7d"
      = some (.object [("a", .array [.integer 1, .array [.null]]), ("b", .text "x")]) := by
    simp only [Json.Value.read?, String.reduceToList]
    rfl
  have hobject : Json.Value.read?
        "\x7b\"a\": [2, \x7b\"n\": [-3, \"\\u000A\"], \"m\": \x7b\x7d\x7d]\x7d"
      = some (.object [("a", .array [.integer 2, .object [("m", .object []),
        ("n", .array [.integer (-3), .text "\n"])]])]) := by
    simp only [Json.Value.read?, String.reduceToList]
    rfl
  have htext : Json.Value.read? "\x7b\"a\": \"\\u001F\\/\"\x7d"
      = some (.object [("a", .text "\x1f/")]) := by
    simp only [Json.Value.read?, String.reduceToList]
    rfl
  have harray : Json.Value.read? "[1]" = some (.array [.integer 1]) := by
    simp only [Json.Value.read?, String.reduceToList]
    rfl
  have hone : (Value.integer 1).Stands 1 := .integer (by decide) (by decide) (by decide)
  have hminus : (Value.integer (-1)).Stands (-1) := .integer (by decide) (by decide) (by decide)
  have htwo : (Value.text "0x2").Stands 2 := .text (by decide)
  have htwo' : (Value.integer 2).Stands 2 := .integer (by decide) (by decide) (by decide)
  obtain ⟨-, -, hok, -, hgrouped⟩ := (ofJson_flattens hread).2.1 _ rfl
  obtain ⟨-, -, -, herror, -⟩ := (ofJson_flattens hnull).2.1 _ rfl
  obtain ⟨-, -, -, herror', -⟩ := (ofJson_flattens hobject).2.1 _ rfl
  obtain ⟨-, -, -, herror'', -⟩ := (ofJson_flattens htext).2.1 _ rfl
  refine ⟨(hok _).mpr ?_, hgrouped _ _ hread' ?_, (herror _).mpr ?_, (herror' _).mpr ?_,
    (herror'' _).mpr ?_, (ofJson_flattens harray).1 fun _ h => by cases h⟩
  · exact .cons ⟨rfl, .cons (.bool true) .nil⟩
      (.cons ⟨rfl, .cons hone (.cons htwo (.cons hminus .nil))⟩ .nil)
  · exact .cons ⟨rfl, rfl⟩ (.cons ⟨rfl, rfl⟩ .nil)
  · exact ⟨"a", .null, "null", ⟨[], _, _, rfl, List.forall_mem_nil _, [.integer 1], [], rfl,
      List.forall_mem_singleton.mpr ⟨1, hone⟩, .null⟩, .null, rfl⟩
  · exact ⟨"a", _, _, ⟨[], _, _, rfl, List.forall_mem_nil _, [.integer 2], [], rfl,
      List.forall_mem_singleton.mpr ⟨2, htwo'⟩, .object _⟩,
      (Value.prints_iff _).mpr (by decide +kernel), rfl⟩
  · exact ⟨"a", _, _, ⟨[], _, _, rfl, List.forall_mem_nil _, [], [], rfl,
      List.forall_mem_nil _, .text (by decide)⟩, (Value.prints_iff _).mpr (by decide +kernel), rfl⟩

end InputValues
end CircuitWitness
