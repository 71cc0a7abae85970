import CircuitWitness.Input.Values
import CircuitWitness.Error
import CircuitWitness.Json.Compact
import CircuitWitness.Json.Reader
import CircuitWitness.Scalar.Literal
/-
  Input values from a JSON document.

  The document is an object, one member for each input.  Arrays are flattened however deep they
  nest, so only the order of the leaves matters.  A leaf is a literal in a string, an integer, or
  a truth value.  Anything else is refused, and the refusal shows the leaf itself, not the array
  it was found in: the first such leaf of the first such member.
-/

namespace CircuitWitness

/-- The scalar that a leaf of a document stands for. -/
def Json.Value.scalar? : Json.Value → Option Scalar
  | .text s => Scalar.ofLiteral? s
  | .integer n => some (if n < 0 then -Scalar.ofNat n.natAbs else Scalar.ofNat n.natAbs)
  | .bool b => some (Scalar.ofBool b)
  | .null | .real _ | .array _ | .object _ => none

mutual

/-- The scalars of a value in the order of its leaves, or the first leaf that is none. -/
def Json.Value.flatten : Json.Value → Except Json.Value (List Scalar)
  | .array items => flattenItems items
  | leaf =>
    match leaf.scalar? with
    | some a => .ok [a]
    | none => .error leaf

/-- The scalars of some values, one after another. -/
def flattenItems : List Json.Value → Except Json.Value (List Scalar)
  | [] => .ok []
  | v :: rest =>
    match v.flatten with
    | .error leaf => .error leaf
    | .ok front =>
      match flattenItems rest with
      | .error leaf => .error leaf
      | .ok back => .ok (front ++ back)

end

namespace InputValues

/-- Add one member of a document to an assignment. -/
def insertMember (a : InputValues) (entry : String × Json.Value) :
    Except Refusal InputValues :=
  match entry.2.flatten with
  | .ok values => .ok (a.insert entry.1 values)
  | .error leaf => .error (.invalidInputValue entry.1 leaf.compact)

/-- The assignment that a document describes. -/
def ofValue : Json.Value → Except Refusal InputValues
  | .object members => members.foldlM insertMember empty
  | _ => .error (.invalidInputValue "<document>" "expected a JSON object")

/-- The assignment that the text of a document describes. -/
def ofJson (text : String) : Except Refusal InputValues :=
  match Json.Value.read? text with
  | some v => ofValue v
  | none => .error .malformedDocument

end InputValues
end CircuitWitness
