import CircuitWitness.Proofs.Document
import CircuitWitness.Proofs.InputBlock
import CircuitWitness.Proofs.Nesting
/-
  Names that are not declared.

  A calculation knows a name by its hash, and it asks for the hash when it comes to a value.  So two
  kinds of undeclared names go unnoticed: those that share the hash of a declared one, which are
  taken for it, and those that are given no value.  All others are the end of the calculation.
  Whatever the entries before have done, bodies included, the circuit is still the same, and the
  element is refused when it is reached (`assignList_unaddressed`).

  What is left to be said is how a calculation can fail to reach it.  It may be refused before; it
  cannot run out of levels; and it may go out of range, where the main inputs do, or where a body
  does that one of the entries before has started.
-/

namespace CircuitWitness

open CircuitWitness.Action

/-! ## An element without an input -/

/-- No declared name has the hash of a name. -/
def Circuit.Unaddressed (circuit : Circuit) (name : String) : Prop :=
  ∀ s ∈ circuit.inputs.signals, inputHash s.name ≠ inputHash name

theorem Circuit.findName?_eq_none {circuit : Circuit} {name : String} :
    circuit.inputs.findName? name = none ↔ circuit.Unaddressed name := by
  unfold InputMap.findName? InputMap.find? Unaddressed
  rw [List.find?_eq_none]
  simp [InputSignal.hash]

variable {circuit : Circuit} {config : Config} {inputs : InputValues} {c c' : Computation}
  {levels : Nat} {x y : Element} {l l' : List Element}

/-- The circuit is the same after an element was assigned. -/
theorem circuit_assigned
    (h : assignByName (enterWithin levels) x.name x.index x.value c = .ok () c') :
    c'.circuit = c.circuit := by
  have hsame := ((Request.assignByName x.name x.index x.value).circuit_eq levels c).1
  have hafter : ((Request.assignByName x.name x.index x.value).perform (enterWithin levels)).after c
      = c' := after_ok h
  rwa [hafter] at hsame

/-- **A row of elements with an unaddressed name among them is not assigned to its end.** -/
theorem assignList_unaddressed (hx : x ∈ l) (hno : c.circuit.Unaddressed x.name) :
    ∃ f c', assignList (enterWithin levels) l c = .error f c' := by
  induction l generalizing c with
  | nil => cases hx
  | cons y l ih =>
    show ∃ f c', (assignByName (enterWithin levels) y.name y.index y.value >>= fun _ =>
      assignList (enterWithin levels) l) c = .error f c'
    cases hy : assignByName (enterWithin levels) y.name y.index y.value c with
    | error f d => exact ⟨f, d, bind_error hy⟩
    | ok u d =>
      rcases List.mem_cons.mp hx with rfl | hx
      · have hrefused : assignByName (enterWithin levels) x.name x.index x.value c
            = .error (.refused (.unknownInputName x.name)) c :=
          assignByName_unknown (Circuit.findName?_eq_none.mpr hno)
        cases hrefused.symm.trans hy
      · rw [bind_ok hy]
        exact ih hx (circuit_assigned hy ▸ hno)

/-- The first value of an entry is an element of the assignment. -/
theorem InputValues.mem_elements {name : String} {v : Scalar} {values : List Scalar}
    (h : (name, v :: values) ∈ inputs.entries) : ⟨name, 0, v⟩ ∈ inputs.elements :=
  List.mem_flatMap.mpr ⟨_, h, List.mem_cons_self ..⟩

/-! ## How a calculation fails -/

/-- A calculation by name fails: it is refused, or it goes out of range, and where the main inputs
    lie inside the store it does so in a body that it entered. -/
def Circuit.TurnsDown (circuit : Circuit) (config : Config) (inputs : InputValues) : Prop :=
  (∃ e, circuit.calculate config inputs = .error (.refused e)) ∨
  (circuit.calculate config inputs = .error .outOfRange ∧
    (circuit.InputsInside → ∃ x s,
      Enters (enterWithin circuit.totalComponents) (fun enter => assignAll enter inputs)
        (.start circuit config) x ∧
      x.Fails (enterWithin circuit.totalComponents) .outOfRange s))

/-- There are levels enough for an assignment in a fresh computation. -/
theorem assignList_ne_tooDeep (c' : Computation) :
    assignList (enterWithin circuit.totalComponents) inputs.elements (.start circuit config)
      ≠ .error .tooDeep c' := by
  have hlevels : (Computation.start circuit config).registry.unbegun ≤ circuit.totalComponents :=
    Nat.le_trans (Nat.sub_le _ _) (Nat.le_of_eq (Registry.capacity_empty _))
  rw [← assignAll_eq]
  exact (Request.terminates _ (.assignAll inputs) (.start circuit config) (Nat.le_refl _) _
    hlevels).2 c'

/-- If the elements are not all assigned, the calculation fails. -/
theorem Circuit.turnsDown {d : CircuitDescription} (hd : d.accept = .ok circuit) {f : Fault}
    (h : assignList (enterWithin circuit.totalComponents) inputs.elements (.start circuit config)
      = .error f c') : circuit.TurnsDown config inputs := by
  have hcalculate : circuit.calculate config inputs = .error f := by
    unfold calculate calculation final
    rw [feed_error (run_assignAll.trans h)]
    rfl
  cases f with
  | refused e => exact .inl ⟨e, hcalculate⟩
  | tooDeep => exact absurd h (assignList_ne_tooDeep c')
  | outOfRange =>
    refine .inr ⟨hcalculate, fun hinside => ?_⟩
    have hcontained : Contained (enterWithin circuit.totalComponents)
        (fun enter => (Request.assignAll inputs).perform enter) (.start circuit config) :=
      Request.contained (m := .start circuit config) trivial (Moment.upright_start circuit config)
        (Computation.roomy_start hd hinside)
    exact hcontained c' ((congrFun (assignAll_eq inputs) _).trans h)

/-! ## Names of one hash -/

/-- Two elements are the same but for the name, and that differs only if both names have the hash of
    a declared one. -/
def Circuit.Alias (circuit : Circuit) (x y : Element) : Prop :=
  x.address = y.address ∧ x.value = y.value ∧
    (x.name = y.name ∨ (circuit.inputs.findName? x.name).isSome)

theorem assignByName_alias {enter : Enter} (h : c.circuit.Alias x y) :
    assignByName enter x.name x.index x.value c = assignByName enter y.name y.index y.value c := by
  obtain ⟨haddress, hvalue, hname | hsome⟩ := h
  all_goals obtain ⟨hhash, hindex⟩ := Prod.mk.inj haddress
  · rw [hname, hindex, hvalue]
  · obtain ⟨s, hs⟩ := Option.isSome_iff_exists.mp hsome
    have hs' : c.circuit.inputs.findName? y.name = some s := by
      unfold InputMap.findName? at hs ⊢
      rwa [← hhash]
    rw [assignByName_known hs, assignByName_known hs', hhash, hindex, hvalue]

theorem assignList_alias (h : List.Forall₂ circuit.Alias l l') (hc : c.circuit = circuit) :
    assignList (enterWithin levels) l c = assignList (enterWithin levels) l' c := by
  induction h generalizing c with
  | nil => rfl
  | @cons x y l l' hxy _ ih =>
    have hfirst : assignByName (enterWithin levels) x.name x.index x.value c
        = assignByName (enterWithin levels) y.name y.index y.value c :=
      assignByName_alias (hc.symm ▸ hxy)
    show (assignByName _ x.name x.index x.value >>= fun _ => assignList _ l) c
      = (assignByName _ y.name y.index y.value >>= fun _ => assignList _ l') c
    cases hx : assignByName (enterWithin levels) x.name x.index x.value c with
    | error f d => rw [bind_error hx, bind_error (hfirst.symm.trans hx)]
    | ok u d =>
      rw [bind_ok hx, bind_ok (hfirst.symm.trans hx)]
      exact ih ((circuit_assigned hx).trans hc)

theorem Circuit.Alias.refl (circuit : Circuit) (x : Element) : circuit.Alias x x :=
  ⟨rfl, rfl, .inl rfl⟩

/-- An entry under another name of one hash has the same elements but for the name. -/
theorem Circuit.alias_elementsFrom {name name' : String} (hhash : inputHash name = inputHash name')
    (hsome : (circuit.inputs.findName? name).isSome) (index : Nat) (values : List Scalar) :
    List.Forall₂ circuit.Alias (elementsFrom name index values)
      (elementsFrom name' index values) := by
  induction values generalizing index with
  | nil => exact .nil
  | cons v values ih =>
    refine .cons ⟨?_, rfl, .inr hsome⟩ (ih (index + 1))
    unfold Element.address
    rw [hhash]

/-- **A name is known by its hash.**  An entry whose name has the hash of a declared one counts as
    an entry of that input. -/
theorem Circuit.calculate_alias {front back : List (String × List Scalar)} {name : String}
    {s : InputSignal} (values : List Scalar) (hs : s ∈ circuit.inputs.signals)
    (hhash : inputHash s.name = inputHash name) :
    circuit.calculate config ⟨front ++ (name, values) :: back⟩
      = circuit.calculate config ⟨front ++ (s.name, values) :: back⟩ := by
  have hsome : (circuit.inputs.findName? name).isSome := by
    rw [Option.isSome_iff_ne_none, Ne, findName?_eq_none]
    exact fun hno => hno s hs hhash
  have hsame : ∀ l : List Element, List.Forall₂ circuit.Alias l l := fun l =>
    List.forall₂_same.mpr fun x _ => .refl circuit x
  have helements : List.Forall₂ circuit.Alias
      (InputValues.elements ⟨front ++ (name, values) :: back⟩)
      (InputValues.elements ⟨front ++ (s.name, values) :: back⟩) := by
    unfold InputValues.elements
    rw [List.flatMap_append, List.flatMap_append, List.flatMap_cons, List.flatMap_cons]
    refine List.rel_append (hsame _) (List.rel_append ?_ (hsame _))
    exact alias_elementsFrom hhash.symm hsome 0 values
  have hrun : Request.run (.assignAll ⟨front ++ (name, values) :: back⟩) (.start circuit config)
      = Request.run (.assignAll ⟨front ++ (s.name, values) :: back⟩) (.start circuit config) := by
    rw [run_assignAll, run_assignAll]
    exact assignList_alias helements rfl
  have hfeed : feed ⟨front ++ (name, values) :: back⟩ (.start circuit config)
      = feed ⟨front ++ (s.name, values) :: back⟩ (.start circuit config) := by
    unfold feed
    cases hr : Request.run (.assignAll ⟨front ++ (name, values) :: back⟩)
        (.start circuit config) with
    | error f d => rw [bind_error hr, bind_error (hrun.symm.trans hr)]
    | ok u d => rw [bind_ok hr, bind_ok (hrun.symm.trans hr)]
  unfold calculate calculation final
  rw [hfeed]

/-! ## The theorem -/

/-- **Values under an unaddressed name are turned down.**  Take an accepted circuit.

    * If an assignment has an entry with at least one value, and no declared name has the hash of
      its name, then the calculation fails, whatever the other entries are.  It is refused, or it
      goes out of range; and if the main inputs lie inside the store, it goes out of range only in a
      body that it entered.
    * So does the calculation from a document that has a member under such a name, unless the value
      of the member is nothing but empty arrays.
    * An entry whose name has the hash of a declared one counts as an entry of that input. -/
theorem Circuit.unaddressed_turned_down {d : CircuitDescription} {circuit : Circuit}
    (hd : d.accept = .ok circuit) (config : Config) :
    (∀ (inputs : InputValues) (name : String) (v : Scalar) (values : List Scalar),
      (name, v :: values) ∈ inputs.entries → circuit.Unaddressed name →
        circuit.TurnsDown config inputs) ∧
    (∀ (text : String) (members : List (String × Json.Value)) (name : String)
      (value : Json.Value), Json.Value.read? text = some (.object members) →
      (name, value) ∈ members → value.flatten ≠ .ok [] → circuit.Unaddressed name →
        (∃ e, circuit.calculateJson config text = .error (.refused e)) ∨
        ∃ inputs, InputValues.ofJson text = .ok inputs ∧
          circuit.calculateJson config text = circuit.calculate config inputs ∧
          circuit.TurnsDown config inputs) ∧
    ∀ (front back : List (String × List Scalar)) (name : String) (s : InputSignal)
      (values : List Scalar), s ∈ circuit.inputs.signals → inputHash s.name = inputHash name →
        circuit.calculate config ⟨front ++ (name, values) :: back⟩
          = circuit.calculate config ⟨front ++ (s.name, values) :: back⟩ := by
  have hentry : ∀ (inputs : InputValues) (name : String) (v : Scalar) (values : List Scalar),
      (name, v :: values) ∈ inputs.entries → circuit.Unaddressed name →
        circuit.TurnsDown config inputs := by
    intro inputs name v values hmem hno
    obtain ⟨f, c', hrun⟩ : ∃ f c', assignList (enterWithin circuit.totalComponents)
        inputs.elements (.start circuit config) = .error f c' :=
      assignList_unaddressed (InputValues.mem_elements hmem) hno
    exact turnsDown hd hrun
  refine ⟨hentry, fun text members name value hread hmem hvalue hno => ?_,
    fun front back name s values hs hhash => calculate_alias values hs hhash⟩
  cases hjson : InputValues.ofJson text with
  | error e =>
    refine .inl ⟨e, ?_⟩
    unfold calculateJson
    rw [hjson]
  | ok inputs =>
    obtain ⟨values, hflat, hin⟩ := InputValues.of_ofJson hjson hread _ hmem
    cases values with
    | nil => exact absurd hflat hvalue
    | cons v values =>
      refine .inr ⟨inputs, rfl, ?_, hentry inputs name v values hin hno⟩
      unfold calculateJson
      rw [hjson]

/-- The same in the small circuit, whose only input is `in`: a value under `z` is turned down, from
    an assignment and from a document. -/
theorem Circuit.unaddressed_turned_down_relay :
    relay.Unaddressed "z" ∧ relay.TurnsDown .diagnostic ⟨[("in", [5, 7]), ("z", [1])]⟩ ∧
    ((∃ e, relay.calculateJson .diagnostic "\x7b\"z\":1\x7d" = .error (.refused e)) ∨
      ∃ inputs, InputValues.ofJson "\x7b\"z\":1\x7d" = .ok inputs ∧
        relay.calculateJson .diagnostic "\x7b\"z\":1\x7d" = relay.calculate .diagnostic inputs ∧
        relay.TurnsDown .diagnostic inputs) := by
  have hno : relay.Unaddressed "z" := by
    intro s hs
    rw [List.mem_singleton.mp hs]
    decide +kernel
  have hread : Json.Value.read? "\x7b\"z\":1\x7d" = some (.object [("z", .integer 1)]) := by
    simp only [Json.Value.read?, String.reduceToList]
    rfl
  obtain ⟨hassigned, hdocument, -⟩ := unaddressed_turned_down accept_relay .diagnostic
  have hflat : Json.Value.flatten (.integer 1) ≠ .ok [] := by
    simp [Json.Value.flatten, Json.Value.scalar?]
  exact ⟨hno, hassigned _ "z" 1 [] (by simp) hno,
    hdocument _ _ "z" (.integer 1) hread (by simp) hflat hno⟩

/-! ### Names that go unnoticed -/

/-- A circuit with one input, whose name shares its hash with another one. -/
def twinDescription : CircuitDescription where
  name := "twin"
  totalSignals := 3
  templates := ⟨#[some ⟨⟨"Twin", 1, 1, 2, 0⟩, fun _ => pure (), none⟩]⟩
  inputs := ⟨[⟨"8yn0iYCKYHlIj4-BwPqk", 0, 1⟩]⟩

def twin : Circuit := ⟨twinDescription, ⟨"Twin", 1, 1, 2, 0⟩⟩

/-- A circuit whose main component writes a signal that is not in the store. -/
def strayDescription : CircuitDescription where
  name := "stray"
  totalSignals := 3
  templates := ⟨#[some ⟨⟨"Stray", 1, 1, 2, 0⟩, fun _ => Procedure.setSignal 9 0, none⟩]⟩
  inputs := ⟨[⟨"in", 0, 1⟩]⟩

def stray : Circuit := ⟨strayDescription, ⟨"Stray", 1, 1, 2, 0⟩⟩

/-- **Not every name that is not declared is refused.**  One that shares its hash with a declared
    name is taken for it; one without values is not looked at; and the main component may go out of
    range before the name is looked at. -/
theorem Circuit.undeclared_unnoticed :
    (twinDescription.accept = .ok twin ∧
      "GReLUrM4wMqfg9yzV3KQ" ∉ twin.inputs.signals.map InputSignal.name ∧
      twin.calculate {} ⟨[("GReLUrM4wMqfg9yzV3KQ", [5])]⟩ = .ok [1, 0, 5]) ∧
    ("z" ∉ twin.inputs.signals.map InputSignal.name ∧
      twin.calculate {} ⟨[("8yn0iYCKYHlIj4-BwPqk", [5]), ("z", [])]⟩ = .ok [1, 0, 5]) ∧
    (strayDescription.accept = .ok stray ∧ "z" ∉ stray.inputs.signals.map InputSignal.name ∧
      stray.calculate {} ⟨[("in", [5]), ("z", [1])]⟩ = .error .outOfRange) :=
  ⟨⟨rfl, by decide, by decide +kernel⟩, ⟨by decide, by decide +kernel⟩,
    rfl, by decide, by decide +kernel⟩

end CircuitWitness
