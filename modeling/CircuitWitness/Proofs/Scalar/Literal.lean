import Mathlib.Data.List.TakeWhile
import Mathlib.Data.Nat.Digits.Defs
import Mathlib.Tactic.IntervalCases
import CircuitWitness.Proofs.Scalar.Field
import CircuitWitness.Scalar.Literal
/-
  The grammar of literals.

  A `Literal` is a literal taken apart: a minus, a mark, a plus, a digit, and digits and underscores
  after it.  It says how it is written (`chars`) and which integer it stands for (`value`), and both
  without a word about reading.  The reader accepts a text if and only if some literal stands in it
  between white space, and then it answers the residue of that literal's value (`read?_chars`,
  `exists_of_read?`).

  The reader looks at one character at a time and takes the first branch that fits.  So what is to
  be seen is that no literal is taken for another: what comes first is never a minus, a plus or the
  `0x` of a mark where it does not count as one, because these are no digits and no underscores.
-/

namespace CircuitWitness

/-! ## Digits -/

namespace Text

/-- A digit of a radix, as a small or as a capital letter where it is a letter. -/
structure Digit (radix : Nat) where
  value : Nat
  value_lt : value < radix
  capital : Bool

variable {radix n v : Nat} {c : Char} {cs : List Char}

@[simp] theorem digit?_underscore (radix : Nat) : digit? radix '_' = none := rfl

/-- How a digit is written. -/
def Digit.char (d : Digit radix) : Char :=
  if d.capital then d.value.digitChar.toUpper else d.value.digitChar

/-- A digit, or an underscore where there is none. -/
def symbol : Option (Digit radix) → Char
  | some d => d.char
  | none => '_'

/-- The number that some digits stand for, the first of them the most significant. -/
def numberOf (digits : List (Digit radix)) : Nat :=
  Nat.ofDigits radix (digits.map Digit.value).reverse

/-- Digit by digit, the number is multiplied by the radix and added to. -/
theorem numberOf_eq_foldl (digits : List (Digit radix)) :
    numberOf digits = digits.foldl (fun acc d => acc * radix + d.value) 0 := by
  unfold numberOf
  rw [Nat.ofDigits_eq_foldr, List.foldr_reverse, List.foldl_map]
  congr 1
  funext acc d
  rw [Nat.cast_id, Nat.add_comm, Nat.mul_comm]

/-- The sixteen digits that there are, in both cases. -/
theorem digit?_digitChar : ∀ v < 16, digit? 16 v.digitChar = some v ∧
    digit? 16 v.digitChar.toUpper = some v := by decide

/-- No digit is white space, so trimming takes none away. -/
theorem isBlank_digitChar : ∀ v < 16, isBlank v.digitChar = false ∧
    isBlank v.digitChar.toUpper = false := by decide

/-- A digit is read as its value. -/
theorem digit?_char (hradix : radix ≤ 16) (d : Digit radix) :
    digit? radix d.char = some d.value := by
  have hlt := d.value_lt
  obtain ⟨hsmall, hcapital⟩ := digit?_digitChar d.value (Nat.lt_of_lt_of_le hlt hradix)
  have hchar : digit? 16 d.char = some d.value := by
    unfold Digit.char
    split
    · exact hcapital
    · exact hsmall
  simp only [digit?, Option.filter_eq_some_iff, decide_eq_true_eq] at hchar ⊢
  exact ⟨hchar.1, hlt⟩

/-- Whatever is read as a digit is written by one. -/
theorem exists_digit (h : digit? radix c = some v) :
    ∃ d : Digit radix, d.char = c ∧ d.value = v := by
  have hlt := digit?_lt h
  simp only [digit?, Option.filter_eq_some_iff] at h
  obtain ⟨h, -⟩ := h
  have hc : c = Char.ofNat c.toNat := (Char.ofNat_toNat c).symm
  have hle : ∀ {x y : Char}, x ≤ y ↔ x.toNat ≤ y.toNat := fun {x y} => Iff.rfl
  simp only [hle] at h
  generalize c.toNat = n at h hc
  subst hc
  -- The three ranges hold ten, six and six characters.
  split at h
  · rename_i hn
    obtain ⟨hlow, hhigh⟩ : 48 ≤ n ∧ n ≤ 57 := hn
    obtain rfl := Option.some.inj h
    refine ⟨⟨_, hlt, false⟩, ?_, rfl⟩
    interval_cases n <;> rfl
  split at h
  · rename_i hn
    obtain ⟨hlow, hhigh⟩ : 97 ≤ n ∧ n ≤ 102 := hn
    obtain rfl := Option.some.inj h
    refine ⟨⟨_, hlt, false⟩, ?_, rfl⟩
    interval_cases n <;> rfl
  split at h
  · rename_i hn
    obtain ⟨hlow, hhigh⟩ : 65 ≤ n ∧ n ≤ 70 := hn
    obtain rfl := Option.some.inj h
    refine ⟨⟨_, hlt, true⟩, ?_, rfl⟩
    show (n - 65 + 10).digitChar.toUpper = Char.ofNat n
    interval_cases n <;> rfl
  · cases h

/-- What is read as no digit is not written by one, and an underscore is no digit either. -/
theorem symbol_ne (hradix : radix ≤ 16) (hc : digit? radix c = none) (hne : c ≠ '_')
    (s : Option (Digit radix)) : symbol s ≠ c := by
  rintro rfl
  cases s with
  | none => exact hne rfl
  | some d =>
    rw [symbol, digit?_char hradix] at hc
    cases hc

theorem char_ne (hradix : radix ≤ 16) (hc : digit? radix c = none) (d : Digit radix) :
    d.char ≠ c := by
  rintro rfl
  rw [digit?_char hradix] at hc
  cases hc

theorem isBlank_symbol (hradix : radix ≤ 16) (s : Option (Digit radix)) :
    isBlank (symbol s) = false := by
  cases s with
  | none => rfl
  | some d =>
    obtain ⟨hsmall, hcapital⟩ := isBlank_digitChar d.value (Nat.lt_of_lt_of_le d.value_lt hradix)
    unfold symbol Digit.char
    dsimp only
    split
    · exact hcapital
    · exact hsmall

/-- The text of a number is written in digits that stand for it. -/
theorem exists_digits (hone : 1 < radix) (n : Nat) :
    ∃ digits : List (Digit radix), digits.map Digit.char = Nat.toDigits radix n ∧
      numberOf digits = n := by
  induction n using Nat.strong_induction_on with
  | _ n ih =>
    rw [Nat.toDigits_eq_if hone]
    by_cases hn : n < radix
    · rw [if_pos hn]
      exact ⟨[⟨n, hn, false⟩], rfl, by rw [numberOf_eq_foldl]; simp⟩
    · rw [if_neg hn]
      have hlast : n % radix < radix := Nat.mod_lt n (Nat.lt_trans Nat.zero_lt_one hone)
      obtain ⟨digits, hchars, hvalue⟩ := ih (n / radix) (Nat.div_lt_self (by omega) hone)
      refine ⟨digits ++ [⟨n % radix, hlast, false⟩], ?_, ?_⟩
      · rw [List.map_append, hchars]
        rfl
      · rw [numberOf_eq_foldl] at hvalue ⊢
        rw [List.foldl_append, hvalue]
        exact Nat.div_add_mod' n radix

/-! ## Trimming -/

/-- What is trimmed off is white space. -/
theorem exists_trim (cs : List Char) :
    ∃ before after, (∀ c ∈ before ++ after, isBlank c = true) ∧
      cs = before ++ trim cs ++ after := by
  have hfront := List.takeWhile_append_dropWhile (p := isBlank) (l := cs)
  have hback := List.takeWhile_append_dropWhile (p := isBlank)
    (l := (cs.dropWhile isBlank).reverse)
  refine ⟨cs.takeWhile isBlank, ((cs.dropWhile isBlank).reverse.takeWhile isBlank).reverse,
    fun c hc => ?_, ?_⟩
  · rcases List.mem_append.mp hc with hc | hc
    · exact List.mem_takeWhile_imp hc
    · exact List.mem_takeWhile_imp (List.mem_reverse.mp hc)
  · unfold trim
    rw [List.append_assoc, ← List.reverse_append, hback, List.reverse_reverse, hfront]

/-- A text that neither begins nor ends with white space is what trimming leaves. -/
theorem trim_between {before after : List Char} {first last : Char}
    (hblank : ∀ c ∈ before ++ after, isBlank c = true) (hfirst : cs.head? = some first)
    (hlast : cs.getLast? = some last) (hf : isBlank first = false) (hl : isBlank last = false) :
    trim (before ++ cs ++ after) = cs := by
  have hbefore : ∀ c ∈ before, isBlank c = true := fun c hc => hblank c (List.mem_append_left _ hc)
  have hafter : ∀ c ∈ after.reverse, isBlank c = true := fun c hc =>
    hblank c (List.mem_append_right _ (List.mem_reverse.mp hc))
  obtain ⟨rest, rfl⟩ := List.head?_eq_some_iff.mp hfirst
  have hreverse : (first :: rest).reverse.head? = some last := by
    rw [List.head?_reverse]
    exact hlast
  obtain ⟨front, hfront⟩ := List.head?_eq_some_iff.mp hreverse
  unfold trim
  rw [List.append_assoc, List.dropWhile_append_of_pos hbefore, List.cons_append,
    List.dropWhile_cons_of_neg (by simp [hf]), ← List.cons_append, List.reverse_append,
    List.dropWhile_append_of_pos hafter, hfront, List.dropWhile_cons_of_neg (by simp [hl]),
    ← hfront, List.reverse_reverse]

end Text

namespace Scalar

open Text (Digit symbol)

/-! ## Literals in their parts -/

/-- What stands in front of the digits and says in which radix they are. -/
inductive Literal.Mark where
  | decimal
  /-- A `0x`. -/
  | lower
  /-- A `0X`. -/
  | upper
deriving DecidableEq

def Literal.Mark.radix : Mark → Nat
  | decimal => 10
  | lower | upper => 16

def Literal.Mark.chars : Mark → List Char
  | decimal => []
  | lower => ['0', 'x']
  | upper => ['0', 'X']

/-- A literal in its parts. -/
structure Literal where
  negative : Bool
  mark : Literal.Mark
  plus : Bool
  first : Digit mark.radix
  /-- What follows the first digit: digits, and nothing for an underscore. -/
  rest : List (Option (Digit mark.radix))

namespace Literal

/-- The digits and underscores, with the plus in front of them. -/
def number (l : Literal) : List Char :=
  (if l.plus then ['+'] else []) ++ l.first.char :: l.rest.map symbol

/-- How the literal is written. -/
def chars (l : Literal) : List Char :=
  (if l.negative then ['-'] else []) ++ (l.mark.chars ++ l.number)

/-- The value of the digits. -/
def magnitude (l : Literal) : Nat := Text.numberOf (l.first :: l.rest.reduceOption)

/-- The integer that the literal stands for. -/
def value (l : Literal) : Int := if l.negative then -l.magnitude else l.magnitude

/-- A text is a literal between white space. -/
def Spells (l : Literal) (text : String) : Prop :=
  ∃ before after, (∀ c ∈ before ++ after, Text.isBlank c = true) ∧
    text.toList = before ++ l.chars ++ after

theorem Mark.radix_le (mark : Mark) : mark.radix ≤ 16 := by
  cases mark <;> decide

theorem Mark.one_lt_radix (mark : Mark) : 1 < mark.radix := by
  cases mark <;> decide

/-! ## Literals are read -/

variable {radix n acc : Nat} {c : Char} {cs : List Char} {a : Scalar}

/-- Each digit is read after those before it, and underscores are passed over. -/
theorem digits?_symbols (hradix : radix ≤ 16) (rest : List (Option (Digit radix))) :
    digits? radix acc (rest.map symbol)
      = some (rest.reduceOption.foldl (fun acc d => acc * radix + d.value) acc) := by
  induction rest generalizing acc with
  | nil => rfl
  | cons s rest ih =>
    rw [List.map_cons]
    unfold digits?
    cases s with
    | none => exact (if_pos rfl).trans ih
    | some d =>
      have hne : symbol (some d) ≠ '_' :=
        Text.char_ne hradix (Text.digit?_underscore radix) d
      have hdigit : Text.digit? radix (symbol (some d)) = some d.value :=
        Text.digit?_char hradix d
      rw [if_neg hne, hdigit]
      exact ih

/-- A digit, and whatever digits and underscores follow it, make a number. -/
theorem unsigned?_digits (hradix : radix ≤ 16) (d : Digit radix)
    (rest : List (Option (Digit radix))) :
    unsigned? radix (d.char :: rest.map symbol)
      = some (Text.numberOf (d :: rest.reduceOption)) := by
  have hrest : digits? radix d.value (rest.map symbol) = _ := digits?_symbols hradix rest
  rw [Text.numberOf_eq_foldl, List.foldl_cons, Nat.zero_mul, Nat.zero_add, ← hrest]
  exact congrArg (Option.bind · fun v => digits? radix v (rest.map symbol))
    (Text.digit?_char hradix d)

theorem natural?_number (l : Literal) : natural? l.mark.radix l.number = some l.magnitude := by
  have hread := unsigned?_digits l.mark.radix_le l.first l.rest
  unfold number
  cases l.plus with
  | true => exact hread
  | false =>
    have hplus := Text.char_ne (c := '+') l.mark.radix_le rfl l.first
    rw [if_neg nofun, List.nil_append]
    unfold natural?
    split
    · rename_i heq
      exact absurd (List.cons.inj heq).1 hplus
    · exact hread

/-- After a leading zero there is no character that is neither a digit nor an underscore. -/
theorem number_ne (l : Literal) (hc : Text.digit? l.mark.radix c = none) (hne : c ≠ '_') :
    l.number ≠ '0' :: c :: cs := by
  unfold number
  cases l.plus with
  | true => simp
  | false =>
    intro h
    obtain ⟨-, hrest⟩ := List.cons.inj h
    have hmem : c ∈ l.rest.map symbol := hrest ▸ List.mem_cons_self ..
    obtain ⟨s, -, hs⟩ := List.mem_map.mp hmem
    exact Text.symbol_ne l.mark.radix_le hc hne s hs

/-- The mark is found before the number, and no other literal begins like this. -/
theorem magnitude?_chars (l : Literal) :
    magnitude? (l.mark.chars ++ l.number) = some l.magnitude := by
  have hnumber := natural?_number l
  cases hmark : l.mark with
  | lower | upper =>
    rw [hmark] at hnumber
    exact hnumber
  | decimal =>
    rw [hmark] at hnumber
    show magnitude? l.number = _
    unfold magnitude?
    split
    · rename_i heq
      exact absurd heq (l.number_ne (by rw [hmark]; rfl) (by decide))
    · rename_i heq
      exact absurd heq (l.number_ne (by rw [hmark]; rfl) (by decide))
    · exact hnumber

/-- What follows the minus does not begin with another one. -/
theorem unsigned_ne (l : Literal) : l.mark.chars ++ l.number ≠ '-' :: cs := by
  have hfirst := Text.char_ne (c := '-') l.mark.radix_le rfl l.first
  have hnumber : l.number ≠ '-' :: cs := by
    unfold number
    cases l.plus with
    | true => exact fun h => absurd (List.cons.inj h).1 (by decide)
    | false => exact fun h => hfirst (List.cons.inj h).1
  cases l.mark with
  | lower | upper => exact fun h => absurd (List.cons.inj h).1 (by decide)
  | decimal => exact hnumber

/-- **A literal is read as the residue of its value.** -/
theorem read?_chars (l : Literal) : read? l.chars = some (ofInt l.value) := by
  have hread := magnitude?_chars l
  unfold chars value
  cases l.negative with
  | true =>
    have hminus : read? ('-' :: (l.mark.chars ++ l.number)) = some (-ofNat l.magnitude) :=
      congrArg (Option.map fun n => -ofNat n) hread
    rw [if_pos rfl, if_pos rfl, ofInt_neg, ofInt_natCast]
    exact hminus
  | false =>
    rw [if_neg nofun, if_neg nofun, ofInt_natCast, List.nil_append]
    unfold read?
    split
    · exact absurd ‹_› l.unsigned_ne
    · rw [hread]
      rfl

/-! ## Nothing else is read -/

theorem exists_of_digits? (h : digits? radix acc cs = some n) :
    ∃ rest : List (Option (Digit radix)), rest.map symbol = cs := by
  induction cs generalizing acc with
  | nil => exact ⟨[], rfl⟩
  | cons c cs ih =>
    unfold digits? at h
    split at h
    · rename_i hc
      obtain ⟨rest, rfl⟩ := ih h
      exact ⟨none :: rest, by rw [hc]; rfl⟩
    · obtain ⟨v, hv, hrest⟩ := Option.bind_eq_some_iff.mp h
      obtain ⟨d, rfl, -⟩ := Text.exists_digit hv
      obtain ⟨rest, rfl⟩ := ih hrest
      exact ⟨some d :: rest, rfl⟩

/-- What the reader takes begins with a digit, and goes on with digits and underscores. -/
theorem exists_of_unsigned? (h : unsigned? radix cs = some n) :
    ∃ (d : Digit radix) (rest : List (Option (Digit radix))), d.char :: rest.map symbol = cs := by
  unfold unsigned? at h
  split at h
  · cases h
  · obtain ⟨v, hv, hrest⟩ := Option.bind_eq_some_iff.mp h
    obtain ⟨d, rfl, -⟩ := Text.exists_digit hv
    obtain ⟨rest, rfl⟩ := exists_of_digits? hrest
    exact ⟨d, rest, rfl⟩

/-- What is read with a certain mark in front of it is the number of a literal. -/
theorem exists_of_natural? (mark : Mark) (h : natural? mark.radix cs = some n) :
    ∃ l : Literal, l.negative = false ∧ l.mark.chars ++ l.number = mark.chars ++ cs := by
  unfold natural? at h
  split at h
  · obtain ⟨d, rest, rfl⟩ := exists_of_unsigned? h
    exact ⟨⟨false, mark, true, d, rest⟩, rfl, rfl⟩
  · obtain ⟨d, rest, rfl⟩ := exists_of_unsigned? h
    exact ⟨⟨false, mark, false, d, rest⟩, rfl, rfl⟩

/-- With a mark before them or none, these are a literal. -/
theorem exists_of_magnitude? (h : magnitude? cs = some n) :
    ∃ l : Literal, l.negative = false ∧ l.mark.chars ++ l.number = cs := by
  unfold magnitude? at h
  split at h
  · exact exists_of_natural? .lower h
  · exact exists_of_natural? .upper h
  · exact exists_of_natural? .decimal h

/-- **What is read is written by a literal.** -/
theorem exists_of_read? (h : read? cs = some a) : ∃ l : Literal, l.chars = cs := by
  unfold read? at h
  split at h
  · obtain ⟨n, hn, -⟩ := Option.map_eq_some_iff.mp h
    obtain ⟨l, -, hl⟩ := exists_of_magnitude? hn
    refine ⟨{ l with negative := true }, ?_⟩
    rw [← hl]
    rfl
  · obtain ⟨n, hn, -⟩ := Option.map_eq_some_iff.mp h
    obtain ⟨l, hsign, hl⟩ := exists_of_magnitude? hn
    refine ⟨l, ?_⟩
    unfold chars
    rw [hsign, hl]
    rfl

/-! ## Literals in a text -/

variable {text : String} {l : Literal}

theorem isBlank_of_mem_chars (l : Literal) (h : c ∈ l.chars) : Text.isBlank c = false := by
  unfold chars number at h
  rcases List.mem_append.mp h with h | h
  · split at h
    · rw [List.mem_singleton.mp h]
      rfl
    · cases h
  rcases List.mem_append.mp h with h | h
  · revert h
    cases l.mark with
    | decimal => exact nofun
    | lower | upper =>
      intro h
      simp only [Mark.chars, List.mem_cons, List.not_mem_nil, or_false] at h
      rcases h with rfl | rfl <;> rfl
  rcases List.mem_append.mp h with h | h
  · split at h
    · rw [List.mem_singleton.mp h]
      rfl
    · cases h
  rcases List.mem_cons.mp h with rfl | h
  · exact Text.isBlank_symbol l.mark.radix_le (some l.first)
  · obtain ⟨s, -, rfl⟩ := List.mem_map.mp h
    exact Text.isBlank_symbol l.mark.radix_le s

/-- Trimming leaves the literal. -/
theorem Spells.trim_eq (h : l.Spells text) : Text.trim text.toList = l.chars := by
  obtain ⟨before, after, hblank, htext⟩ := h
  have hne : l.chars ≠ [] := by
    unfold chars number
    simp
  rw [htext]
  exact Text.trim_between hblank (List.head?_eq_some_head hne) (List.getLast?_eq_some_getLast hne)
    (isBlank_of_mem_chars l (List.head_mem hne)) (isBlank_of_mem_chars l (List.getLast_mem hne))

/-- A literal spells itself, without white space around it. -/
theorem Spells.of_chars (h : text.toList = l.chars) : l.Spells text :=
  ⟨[], [], nofun, by rw [h]; simp⟩

/-- **A text is read if it is a literal between white space**, as the residue of its value. -/
theorem ofLiteral?_eq_some_iff :
    ofLiteral? text = some a ↔ ∃ l : Literal, l.Spells text ∧ a = ofInt l.value := by
  unfold ofLiteral?
  constructor
  · intro h
    obtain ⟨l, hl⟩ := exists_of_read? h
    obtain ⟨before, after, hblank, htext⟩ := Text.exists_trim text.toList
    rw [← hl, read?_chars] at h
    rw [← hl] at htext
    exact ⟨l, ⟨before, after, hblank, htext⟩, (Option.some.inj h).symm⟩
  · rintro ⟨l, hspells, rfl⟩
    rw [hspells.trim_eq, read?_chars]

/-! ## Numbers as literals -/

/-- A number in digits, with any sign and mark, is a literal. -/
theorem exists_literal (negative : Bool) (mark : Mark) (n : Nat) :
    ∃ l : Literal, l.value = (if negative then -(n : Int) else n) ∧
      l.chars = (if negative then ['-'] else []) ++ (mark.chars ++ Nat.toDigits mark.radix n) := by
  obtain ⟨digits, hchars, hvalue⟩ := Text.exists_digits mark.one_lt_radix n
  cases digits with
  | nil => exact absurd hchars.symm Nat.toDigits_ne_nil
  | cons d rest =>
    have hrest : (rest.map some).reduceOption = rest := by
      unfold List.reduceOption
      rw [List.filterMap_map]
      exact List.filterMap_some
    refine ⟨⟨negative, mark, false, d, rest.map some⟩, ?_, ?_⟩
    · unfold value magnitude
      rw [hrest, hvalue]
    · unfold chars number
      rw [← hchars, List.map_map]
      rfl

/-- So it is read as its residue. -/
theorem ofLiteral?_digits (negative : Bool) (mark : Mark)
    (h : text.toList
      = (if negative then ['-'] else []) ++ (mark.chars ++ Nat.toDigits mark.radix n)) :
    ofLiteral? text = some (ofInt (if negative then -(n : Int) else n)) := by
  obtain ⟨l, hvalue, hchars⟩ := exists_literal negative mark n
  exact ofLiteral?_eq_some_iff.mpr ⟨l, .of_chars (h.trans hchars.symm), by rw [hvalue]⟩

theorem ofLiteral?_repr (n : Nat) : ofLiteral? (Nat.repr n) = some (ofInt n) :=
  ofLiteral?_digits false .decimal Nat.toList_repr

theorem ofLiteral?_minus (n : Nat) : ofLiteral? ("-" ++ Nat.repr n) = some (ofInt (-n)) := by
  refine ofLiteral?_digits true .decimal ?_
  rw [String.toList_append, Nat.toList_repr]
  rfl

theorem ofLiteral?_hexadecimal (n : Nat) :
    ofLiteral? ("0x" ++ String.ofList (Nat.toDigits 16 n)) = some (ofInt n) := by
  refine ofLiteral?_digits false .lower ?_
  have hmark : "0x".toList = ['0', 'x'] := rfl
  rw [String.toList_append, hmark, String.toList_ofList]
  rfl

end Literal

/-! ## The theorem -/

/-- **Literals are read exactly by their grammar.**

    * A text is accepted if and only if it is, between white space, a literal: an optional minus, an
      optional `0x` or `0X`, an optional plus, a digit of the radix that goes with the mark, and any
      digits and underscores.
    * What it is read as is the value of the digits, negated after a minus, modulo the order of the
      field; the digits may stand for a number of any size.
    * So a scalar is read back from its residue in decimal, from its residue in hexadecimal after
      `0x`, and, once negated, from its residue in decimal after a minus. -/
theorem literals_read (text : String) (a : Scalar) :
    ((ofLiteral? text).isSome = true ↔ ∃ l : Literal, l.Spells text) ∧
    (ofLiteral? text = some a ↔
      ∃ l : Literal, l.Spells text ∧ (a.val : Int) = l.value % modulus) ∧
    ofLiteral? a.toDecimal = some a ∧
    ofLiteral? ("0x" ++ String.ofList (Nat.toDigits 16 a.val)) = some a ∧
    (ofLiteral? ("-" ++ a.toDecimal)).map (- ·) = some a := by
  have hself : ofInt a.val = a := by rw [ofInt_natCast, ofNat_val]
  have hdecimal := Literal.ofLiteral?_repr a.val
  have hhexadecimal := Literal.ofLiteral?_hexadecimal a.val
  have hminus := Literal.ofLiteral?_minus a.val
  rw [hself] at hdecimal hhexadecimal
  rw [ofInt_neg, hself] at hminus
  refine ⟨?_, ?_, hdecimal, hhexadecimal, ?_⟩
  · rw [Option.isSome_iff_exists]
    constructor
    · rintro ⟨b, hb⟩
      obtain ⟨l, hspells, -⟩ := Literal.ofLiteral?_eq_some_iff.mp hb
      exact ⟨l, hspells⟩
    · rintro ⟨l, hspells⟩
      exact ⟨ofInt l.value, Literal.ofLiteral?_eq_some_iff.mpr ⟨l, hspells, rfl⟩⟩
  · simp only [← eq_ofInt_iff]
    exact Literal.ofLiteral?_eq_some_iff
  · unfold toDecimal
    rw [hminus, Option.map_some, Scalar.neg_neg]

/-- Where sign, mark, plus and underscore stand matters. -/
example : [" -0x+1_ ", "+0x1", "--1", "0x", "- 1", "_1"].map ofLiteral?
    = [some (-1), none, none, none, none, none] := by decide

end Scalar
end CircuitWitness
