import CircuitWitness.Decimal.Shortest
import CircuitWitness.Json.Value
import CircuitWitness.Text.Quoted
/-
  The compact text of a JSON value: no white space, members in the order of their keys.

  Strings escape only what the grammar demands.  Real numbers have the fewest digits that read
  back; how the digits are laid out is one record, `RealLayout.compact`.
-/

namespace CircuitWitness.Json

/-- How the digits of a real number are laid out. -/
structure RealLayout where
  /-- The smallest decimal exponent that is written positionally. -/
  lowest : Int
  /-- The largest decimal exponent that is written positionally. -/
  highest : Int
  /-- Written between the digits and the exponent. -/
  mark : String
  /-- Written before an exponent that is not negative. -/
  plus : String

/-- Numbers from `1e-5` up to `1e16` are positional and keep `.0` when they are whole; beyond, an
    exponent with its sign follows the mark `e`. -/
def RealLayout.compact : RealLayout := ⟨-5, 15, "e", "+"⟩

/-- A string of zeros. -/
def zeros (n : Nat) : String := String.ofList (List.replicate n '0')

/-- The text of a positive decimal. -/
def RealLayout.show (l : RealLayout) (d : Decimal.Digits) : String :=
  let ds := (Nat.repr d.digits).toList
  let point : Int := (ds.length : Int) + d.exponent
  let e := point - 1
  if l.lowest ≤ e ∧ e ≤ l.highest then
    if point ≤ 0 then "0." ++ zeros (-point).toNat ++ String.ofList ds
    else if point < (ds.length : Int) then
      String.ofList (ds.take point.toNat) ++ "." ++ String.ofList (ds.drop point.toNat)
    else String.ofList ds ++ zeros d.exponent.toNat ++ ".0"
  else
    let rest := ds.drop 1
    let digits := String.ofList (ds.take 1) ++
      (if rest.isEmpty then "" else "." ++ String.ofList rest)
    let sign := if e < 0 then "-" else l.plus
    digits ++ l.mark ++ sign ++ Nat.repr e.natAbs

/-- The text of a finite real number.  Zero is positional and keeps its sign. -/
def realText (x : Float) : String :=
  let sign := if x.toBits.toNat >>> 63 = 1 then "-" else ""
  let d := Decimal.shortest x
  sign ++ (if d.digits = 0 then "0.0" else RealLayout.compact.show d)

/-- A character as it stands inside a JSON string. -/
def stringChar (c : Char) : String :=
  if c = '"' then "\\\""
  else if c = '\\' then "\\\\"
  else if c = '\x08' then "\\b"
  else if c = '\x0c' then "\\f"
  else if c = '\n' then "\\n"
  else if c = '\r' then "\\r"
  else if c = '\t' then "\\t"
  else if c.toNat < 0x20 then "\\u" ++ Text.hexPadded 4 c.toNat
  else c.toString

/-- The text of a JSON string, quotes included. -/
def stringText (s : String) : String :=
  "\"" ++ String.join (s.toList.map stringChar) ++ "\""

mutual

/-- The compact text of a value. -/
def Value.compact : Value → String
  | .null => "null"
  | .bool b => if b then "true" else "false"
  | .integer n => if n < 0 then "-" ++ Nat.repr n.natAbs else Nat.repr n.natAbs
  | .real x => realText x
  | .text s => stringText s
  | .array items => "[" ++ compactItems items ++ "]"
  | .object members => "\x7b" ++ compactMembers members ++ "\x7d"

/-- Items with commas between them. -/
def compactItems : List Value → String
  | [] => ""
  | [v] => v.compact
  | v :: rest => v.compact ++ "," ++ compactItems rest

/-- Members with commas between them. -/
def compactMembers : List (String × Value) → String
  | [] => ""
  | [(k, v)] => stringText k ++ ":" ++ v.compact
  | (k, v) :: rest => stringText k ++ ":" ++ v.compact ++ "," ++ compactMembers rest

end

end CircuitWitness.Json
