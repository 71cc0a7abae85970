import CircuitWitness.Scalar.Basic
/-
  Values for the inputs of a circuit, by name.

  Names stand in the order in which they were first given; giving a name again replaces its
  values and leaves it at its place.
-/

namespace CircuitWitness

/-- Input values by name, each name once. -/
structure InputValues where
  entries : List (String × List Scalar)
deriving DecidableEq, Inhabited

namespace InputValues

def empty : InputValues := ⟨[]⟩

/-- The values of a name. -/
def get? (a : InputValues) (name : String) : Option (List Scalar) :=
  (a.entries.find? fun e => e.1 == name).map Prod.snd

/-- Give a name its values, in place of any that it had. -/
def insert (a : InputValues) (name : String) (values : List Scalar) : InputValues :=
  if (a.get? name).isSome then
    ⟨a.entries.map fun e => if e.1 == name then (name, values) else e⟩
  else ⟨a.entries ++ [(name, values)]⟩

/-- Give some names their values, in order. -/
def ofList (entries : List (String × List Scalar)) : InputValues :=
  entries.foldl (fun a e => a.insert e.1 e.2) empty

def size (a : InputValues) : Nat := a.entries.length

def isEmpty (a : InputValues) : Bool := a.entries.isEmpty

end InputValues
end CircuitWitness
