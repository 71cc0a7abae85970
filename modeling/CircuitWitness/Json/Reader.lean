import CircuitWitness.Json.Number
/-
  Reading JSON documents.

  White space is the four characters of the grammar.  Strings may hold any character from U+0020
  on and the usual escapes; an escaped surrogate has to be followed by its partner.  A document
  may nest arrays and objects 127 deep.  Of members with one key the last counts.
-/

namespace CircuitWitness.Json

/-- Arrays and objects may not be nested as deep as this. -/
def depthLimit : Nat := 128

/-- White space between the parts of a document. -/
def isSpace (c : Char) : Bool := c == ' ' || c == '\t' || c == '\n' || c == '\r'

def skipSpace (cs : List Char) : List Char := cs.dropWhile isSpace

/-! ## Strings -/

/-- The character that an escaped code unit stands for, together with its partner if it is the
    first half of a pair. -/
def escapedUnit? (cs : List Char) : Option (Char × List Char) := do
  let (unit, rest) ← Text.fixedDigits? 16 4 cs
  if unit < 0xD800 ∨ 0xDFFF < unit then return (Char.ofNat unit, rest)
  else if 0xDC00 ≤ unit then none
  else
    match rest with
    | '\\' :: 'u' :: rest =>
      let (second, rest) ← Text.fixedDigits? 16 4 rest
      if second < 0xDC00 ∨ 0xDFFF < second then none
      else return (Char.ofNat (0x10000 + (unit - 0xD800) * 0x400 + (second - 0xDC00)), rest)
    | _ => none

/-- What an escape stands for, after its backslash. -/
def escape? : List Char → Option (Char × List Char)
  | '"' :: rest => some ('"', rest)
  | '\\' :: rest => some ('\\', rest)
  | '/' :: rest => some ('/', rest)
  | 'b' :: rest => some ('\x08', rest)
  | 'f' :: rest => some ('\x0c', rest)
  | 'n' :: rest => some ('\n', rest)
  | 'r' :: rest => some ('\r', rest)
  | 't' :: rest => some ('\t', rest)
  | 'u' :: rest => escapedUnit? rest
  | _ => none

/-- The rest of a string, after its opening quote; `fuel` bounds the characters read. -/
def string? : Nat → List Char → List Char → Option (String × List Char)
  | 0, _, _ => none
  | _ + 1, _, [] => none
  | fuel + 1, acc, c :: rest =>
    if c = '"' then some (String.ofList acc.reverse, rest)
    else if c = '\\' then
      match escape? rest with
      | some (d, rest) => string? fuel (d :: acc) rest
      | none => none
    else if c.toNat < 0x20 then none
    else string? fuel (c :: acc) rest

/-! ## Values -/

/-- Drop a fixed word from the front of a text. -/
def word? : List Char → List Char → Option (List Char)
  | [], cs => some cs
  | w :: ws, c :: cs => if w = c then word? ws cs else none
  | _ :: _, [] => none

mutual

/-- A value at the start of a text.  `depth` is what is left of the nesting limit, and `fuel`
    bounds the steps. -/
def value? : Nat → Nat → List Char → Option (Value × List Char)
  | 0, _, _ => none
  | fuel + 1, depth, cs =>
    match skipSpace cs with
    | [] => none
    | c :: rest =>
      if c = 'n' then (word? ['u', 'l', 'l'] rest).map fun r => (.null, r)
      else if c = 't' then (word? ['r', 'u', 'e'] rest).map fun r => (.bool true, r)
      else if c = 'f' then (word? ['a', 'l', 's', 'e'] rest).map fun r => (.bool false, r)
      else if c = '"' then (string? fuel [] rest).map fun (s, r) => (.text s, r)
      else if c = '[' then
        if depth ≤ 1 then none
        else
          match skipSpace rest with
          | ']' :: r => some (.array [], r)
          | r => items? fuel (depth - 1) [] r
      else if c = '\x7b' then
        if depth ≤ 1 then none
        else
          match skipSpace rest with
          | '\x7d' :: r => some (.object [], r)
          | r => members? fuel (depth - 1) [] r
      else Number.read? (c :: rest)

/-- The items of an array, the ones before this in reverse. -/
def items? : Nat → Nat → List Value → List Char → Option (Value × List Char)
  | 0, _, _, _ => none
  | fuel + 1, depth, acc, cs =>
    match value? fuel depth cs with
    | none => none
    | some (v, rest) =>
      match skipSpace rest with
      | ',' :: rest => items? fuel depth (v :: acc) rest
      | ']' :: rest => some (.array (v :: acc).reverse, rest)
      | _ => none

/-- The members of an object, those before this in the order of their keys. -/
def members? : Nat → Nat → List (String × Value) → List Char → Option (Value × List Char)
  | 0, _, _, _ => none
  | fuel + 1, depth, acc, cs =>
    match skipSpace cs with
    | '"' :: rest =>
      match string? fuel [] rest with
      | none => none
      | some (key, rest) =>
        match skipSpace rest with
        | ':' :: rest =>
          match value? fuel depth rest with
          | none => none
          | some (v, rest) =>
            match skipSpace rest with
            | ',' :: rest => members? fuel depth (insertMember key v acc) rest
            | '\x7d' :: rest => some (.object (insertMember key v acc), rest)
            | _ => none
        | _ => none
    | _ => none

end

/-- The value that a text denotes, or nothing if the text is no JSON document.  Every step reads
    a character or goes one level down, so twice the length is fuel enough. -/
def Value.read? (text : String) : Option Value :=
  let cs := text.toList
  match value? (2 * cs.length + 4) depthLimit cs with
  | some (v, rest) => if (skipSpace rest).isEmpty then some v else none
  | none => none

end CircuitWitness.Json
