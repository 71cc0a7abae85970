import CircuitWitness.Text.Digit
/-
  Numbers, dates and times in TOML documents.

  Only their form and range matter here.  Digits may be separated by single underscores.  An
  integer has to fit a signed 64-bit word, and a real number may not be as large as to round to
  positive infinity.  Dates have to exist in the calendar, and times on the clock, a leap second
  included.
-/

namespace CircuitWitness.Toml

/-! ## Integers and real numbers -/

/-- More digits of a number whose value so far is given; an underscore has to have a digit after
    it. -/
def moreDigits? (radix : Nat) : Nat → List Char → Option (Nat × List Char)
  | n, [] => some (n, [])
  | n, c :: rest =>
    match Text.digit? radix c with
    | some d => moreDigits? radix (n * radix + d) rest
    | none =>
      if c = '_' then
        if (rest.head?.map (Text.isDigit radix)).getD false then moreDigits? radix n rest else none
      else some (n, c :: rest)

/-- A number of at least one digit, after the value so far. -/
def digits? (radix n : Nat) (cs : List Char) : Option (Nat × List Char) :=
  if (cs.head?.map (Text.isDigit radix)).getD false then moreDigits? radix n cs else none

/-- An optional sign; the flag says whether it is a minus. -/
def sign : List Char → Bool × List Char
  | '+' :: rest => (false, rest)
  | '-' :: rest => (true, rest)
  | cs => (false, cs)

/-- Decimal digits without a leading zero. -/
def decimal? : List Char → Option (Nat × List Char)
  | '0' :: rest => some (0, rest)
  | cs => digits? 10 0 cs

/-- The smallest number that rounds to infinity in binary64. -/
def infinityThreshold : Nat := (1 <<< 1024) - (1 <<< 970)

/-- Whether `n · 10 ^ e` rounds to infinity.  A number of more than 310 digits always does, and
    one below 1 never. -/
def isInfinite (n : Nat) (e : Int) : Bool :=
  let digits : Int := ((Nat.toDigits 10 n).length : Int) + e
  if n = 0 ∨ digits ≤ 0 then false
  else if 310 < digits then true
  else infinityThreshold * Nat.pow 10 (-e).toNat ≤ n * Nat.pow 10 e.toNat

/-- The exponent of a real number, zero if it has none. -/
def exponent? : List Char → Option (Int × List Char)
  | c :: rest =>
    if c = 'e' ∨ c = 'E' then
      let (negative, rest) := sign rest
      (digits? 10 0 rest).map fun (n, rest) => (if negative then -(n : Int) else (n : Int), rest)
    else some (0, c :: rest)
  | [] => some (0, [])

/-- A real number: it has a point or an exponent. -/
def real? (cs : List Char) : Option (List Char) := do
  let (negative, rest) := sign cs
  match rest with
  | 'i' :: 'n' :: 'f' :: rest => return rest
  | 'n' :: 'a' :: 'n' :: rest => return rest
  | _ =>
    let (whole, afterWhole) ← decimal? rest
    match afterWhole with
    | '.' :: fraction =>
      let (n, afterFraction) ← digits? 10 whole fraction
      let places := ((fraction.take (fraction.length - afterFraction.length)).filter
        (Text.isDigit 10)).length
      let (e, rest) ← exponent? afterFraction
      if !negative && isInfinite n (e - (places : Int)) then none else return rest
    | c :: _ =>
      if c = 'e' ∨ c = 'E' then
        let (e, rest) ← exponent? afterWhole
        if !negative && isInfinite whole e then none else return rest
      else none
    | [] => none

/-- An integer, in decimal with a sign or with a radix mark and without one. -/
def integer? (cs : List Char) : Option (List Char) :=
  let marked (radix : Nat) (rest : List Char) : Option (List Char) :=
    (digits? radix 0 rest).bind fun (n, rest) => if n < 1 <<< 63 then some rest else none
  match cs with
  | '0' :: 'x' :: rest => marked 16 rest
  | '0' :: 'o' :: rest => marked 8 rest
  | '0' :: 'b' :: rest => marked 2 rest
  | _ =>
    let (negative, rest) := sign cs
    (decimal? rest).bind fun (n, rest) =>
      if n < 1 <<< 63 ∨ (negative = true ∧ n = 1 <<< 63) then some rest else none

/-! ## Dates and times -/

/-- A character that has to stand here. -/
def char? (c : Char) : List Char → Option (List Char)
  | d :: rest => if c = d then some rest else none
  | [] => none

/-- Two digits with a value in a range. -/
def twoDigits? (low high : Nat) (cs : List Char) : Option (Nat × List Char) :=
  (Text.fixedDigits? 10 2 cs).filter fun r => low ≤ r.1 && r.1 ≤ high

/-- The number of days of a month. -/
def daysOfMonth (year month : Nat) : Nat :=
  if month = 2 then
    if year % 4 = 0 ∧ (year % 100 ≠ 0 ∨ year % 400 = 0) then 29 else 28
  else if month = 4 ∨ month = 6 ∨ month = 9 ∨ month = 11 then 30
  else 31

/-- A date. -/
def date? (cs : List Char) : Option (List Char) := do
  let (year, rest) ← Text.fixedDigits? 10 4 cs
  let (month, rest) ← twoDigits? 1 12 (← char? '-' rest)
  let (day, rest) ← twoDigits? 1 31 (← char? '-' rest)
  if day ≤ daysOfMonth year month then return rest else none

/-- A time of day, to the second or finer. -/
def time? (cs : List Char) : Option (List Char) := do
  let (_, rest) ← twoDigits? 0 23 cs
  let (_, rest) ← twoDigits? 0 59 (← char? ':' rest)
  let (_, rest) ← twoDigits? 0 60 (← char? ':' rest)
  match rest with
  | '.' :: fraction =>
    if (fraction.head?.map (Text.isDigit 10)).getD false then
      return fraction.dropWhile (Text.isDigit 10)
    else return rest
  | _ => return rest

/-- The offset of a time from universal time. -/
def offset? : List Char → Option (List Char)
  | c :: rest =>
    if c = 'Z' ∨ c = 'z' then some rest
    else if c = '+' ∨ c = '-' then do
      let (_, rest) ← twoDigits? 0 23 rest
      let (_, rest) ← twoDigits? 0 59 (← char? ':' rest)
      return rest
    else none
  | [] => none

/-- A time after a date, with an offset if there is one. -/
def timeOfDate? : List Char → Option (List Char)
  | c :: rest =>
    if c = 'T' ∨ c = 't' ∨ c = ' ' then
      (time? rest).map fun rest => (offset? rest).getD rest
    else none
  | [] => none

/-- A date, a time, or both. -/
def dateTime? (cs : List Char) : Option (List Char) :=
  match date? cs with
  | some rest => some ((timeOfDate? rest).getD rest)
  | none => time? cs

/-- Anything that starts with a digit or a sign. -/
def number? (cs : List Char) : Option (List Char) :=
  (dateTime? cs).or ((real? cs).or (integer? cs))

end CircuitWitness.Toml
