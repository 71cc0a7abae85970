/-
  JSON documents as values.

  Numbers come in two kinds: integers that fit a signed or unsigned 64-bit word, and all others,
  which are binary64.  An object is the list of its members in the order of their keys, each key
  once; strings are compared by code point.
-/

namespace CircuitWitness.Json

/-- A JSON document or a part of one. -/
inductive Value where
  | null
  | bool (b : Bool)
  /-- An integer from `-2 ^ 63` to `2 ^ 64 - 1`; zero with a minus sign is not among them. -/
  | integer (n : Int)
  /-- Any other number. -/
  | real (x : Float)
  | text (s : String)
  | array (items : List Value)
  | object (members : List (String × Value))
deriving Inhabited

/-- Enter a member at the place of its key; a member with the same key is replaced. -/
def insertMember (key : String) (value : Value) :
    List (String × Value) → List (String × Value)
  | [] => [(key, value)]
  | (k, v) :: rest =>
    if key = k then (key, value) :: rest
    else if key < k then (key, value) :: (k, v) :: rest
    else (k, v) :: insertMember key value rest

end CircuitWitness.Json
