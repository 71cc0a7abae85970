import CircuitWitness.Text.Printable
/-
  Quoted text, as messages show names and literals.

  The text stands between double quotes.  A quote and a backslash are preceded by a backslash;
  tab, line feed, carriage return and the null character have letters of their own; every other
  character without a printed form is written by its code point, in lower-case hexadecimal
  between braces.  All else, single quotes included, stands for itself.
-/

namespace CircuitWitness.Text

/-- A number in lower-case hexadecimal, without leading zeros. -/
def hex (n : Nat) : String := String.ofList (Nat.toDigits 16 n)

/-- A number in lower-case hexadecimal, padded with zeros to at least `digits` places. -/
def hexPadded (digits n : Nat) : String :=
  let text := hex n
  String.ofList (List.replicate (digits - text.length) '0') ++ text

/-- A character as it stands inside a quoted text. -/
def quotedChar (c : Char) : String :=
  if c = '"' then "\\\""
  else if c = '\\' then "\\\\"
  else if c = '\t' then "\\t"
  else if c = '\n' then "\\n"
  else if c = '\r' then "\\r"
  else if c = '\x00' then "\\0"
  else if isPrintable c then c.toString
  else "\\u\x7b" ++ hex c.toNat ++ "\x7d"

/-- The text between double quotes, with escapes where a character needs one. -/
def quoted (text : String) : String :=
  "\"" ++ String.join (text.toList.map quotedChar) ++ "\""

end CircuitWitness.Text
