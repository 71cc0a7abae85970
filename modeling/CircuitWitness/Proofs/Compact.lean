import CircuitWitness.Proofs.Decimal.Binary64
import CircuitWitness.Proofs.Decimal.Layout
/-
  The grammar of compact texts.

  What a value is printed as is said by `Value.Prints`, without a word about printing: no white
  space, members in their order, one escape for each character that needs one, integers in decimal,
  and a real number in the shortest digits that round to it, laid out as `Decimal.Layout` says.
  Printing is the only text of this grammar (`Value.prints_iff`).

  All texts are determined by what they are built of, so the two directions are proved together, one
  equivalence for each kind of value.  The crux is the real number, whose text the grammar does not
  build but describes: there the two directions are that the printed digits are as described, and
  that no others are.
-/

namespace CircuitWitness.Json

/-! ## Strings -/

/-- The characters with a short escape, and the letter of it. -/
def escapes : List (Char × Char) :=
  [('"', '"'), ('\\', '\\'), ('\x08', 'b'), ('\x0c', 'f'), ('\n', 'n'), ('\r', 'r'), ('\t', 't')]

/-- What stands for a character inside a string: the short escape if there is one, an escape with
    four hexadecimal digits for the other control characters, and otherwise the character. -/
inductive CharPrints (c : Char) : String → Prop
  | short {letter : Char} (h : (c, letter) ∈ escapes) : CharPrints c ("\\" ++ letter.toString)
  | control {high low : ℕ} (hnone : ∀ letter, (c, letter) ∉ escapes) (hcontrol : c.toNat < 0x20)
      (hhigh : high < 16) (hlow : low < 16) (h : c.toNat = 16 * high + low) :
      CharPrints c ("\\u00" ++ String.ofList [high.digitChar, low.digitChar])
  | plain (hnone : ∀ letter, (c, letter) ∉ escapes) (hplain : 0x20 ≤ c.toNat) :
      CharPrints c c.toString

/-- A string between quotes, character by character. -/
def StringPrints (s t : String) : Prop :=
  ∃ pieces, List.Forall₂ CharPrints s.toList pieces ∧ t = "\"" ++ String.join pieces ++ "\""

/-! ## Values -/

/-- The sign of a real number, that of a zero included. -/
def signText (x : Float) : String := if 2 ^ 63 ≤ x.toBits.toNat then "-" else ""

mutual

/-- What a value is printed as. -/
inductive Value.Prints : Value → String → Prop
  | null : Value.Prints .null "null"
  | bool (b : Bool) : Value.Prints (.bool b) (if b then "true" else "false")
  | integer (n : ℤ) : Value.Prints (.integer n) (toString n)
  | zero {x : Float} (h : Decimal.magnitudeBits x = 0) :
      Value.Prints (.real x) (signText x ++ "0.0")
  | real {x : Float} {d : Decimal.Digits} {t : String} (hpos : 0 < Decimal.magnitudeBits x)
      (hd : Decimal.Shortest (Decimal.Binary64.RoundsTo (Decimal.magnitudeBits x))
        (Decimal.Binary64.value (Decimal.magnitudeBits x)) d)
      (ht : Decimal.Layout d.value t) : Value.Prints (.real x) (signText x ++ t)
  | text {s t : String} (h : StringPrints s t) : Value.Prints (.text s) t
  | array {items : List Value} {texts : List String} (h : ItemsPrint items texts) :
      Value.Prints (.array items) ("[" ++ ",".intercalate texts ++ "]")
  | object {members : List (String × Value)} {texts : List String}
      (h : MembersPrint members texts) :
      Value.Prints (.object members) ("\x7b" ++ ",".intercalate texts ++ "\x7d")

/-- The texts of the items of an array. -/
inductive ItemsPrint : List Value → List String → Prop
  | nil : ItemsPrint [] []
  | cons {v : Value} {t : String} {items : List Value} {texts : List String} (hv : v.Prints t)
      (hitems : ItemsPrint items texts) : ItemsPrint (v :: items) (t :: texts)

/-- The texts of the members of an object, each with a colon behind its key. -/
inductive MembersPrint : List (String × Value) → List String → Prop
  | nil : MembersPrint [] []
  | cons {key k t : String} {v : Value} {members : List (String × Value)} {texts : List String}
      (hkey : StringPrints key k) (hv : v.Prints t) (hmembers : MembersPrint members texts) :
      MembersPrint ((key, v) :: members) ((k ++ ":" ++ t) :: texts)

end

variable {c : Char} {s t : String} {x : Float} {texts : List String}

/-! ## Printing strings -/

/-- A control character in four hexadecimal digits. -/
theorem hexPadded_control : ∀ n < 0x20, Text.hexPadded 4 n
    = "00" ++ String.ofList [(n / 16).digitChar, (n % 16).digitChar] := by
  decide

/-- A character with a short escape is printed as that. -/
theorem stringChar_of_short {letter : Char} (h : (c, letter) ∈ escapes) :
    stringChar c = "\\" ++ letter.toString := by
  simp only [escapes, List.mem_cons, Prod.mk.injEq, List.not_mem_nil, or_false] at h
  rcases h with ⟨rfl, rfl⟩ | ⟨rfl, rfl⟩ | ⟨rfl, rfl⟩ | ⟨rfl, rfl⟩ | ⟨rfl, rfl⟩ | ⟨rfl, rfl⟩ |
    ⟨rfl, rfl⟩ <;> rfl

/-- A character without one is printed as itself, unless it is a control character. -/
theorem stringChar_of_none (hnone : ∀ letter, (c, letter) ∉ escapes) : stringChar c =
    if c.toNat < 0x20 then "\\u" ++ Text.hexPadded 4 c.toNat else c.toString := by
  have hne : ∀ a letter, (a, letter) ∈ escapes → c ≠ a := fun _ letter h hc =>
    hnone letter (hc ▸ h)
  unfold stringChar
  rw [if_neg (hne '"' '"' (by decide)), if_neg (hne '\\' '\\' (by decide)),
    if_neg (hne '\x08' 'b' (by decide)), if_neg (hne '\x0c' 'f' (by decide)),
    if_neg (hne '\n' 'n' (by decide)), if_neg (hne '\r' 'r' (by decide)),
    if_neg (hne '\t' 't' (by decide))]

/-- Each character has one text. -/
theorem charPrints_iff : CharPrints c t ↔ t = stringChar c := by
  constructor
  · rintro (h | ⟨hnone, hcontrol, hhigh, hlow, h⟩ | ⟨hnone, hplain⟩)
    · exact (stringChar_of_short h).symm
    · rename_i high low
      obtain rfl : high = c.toNat / 16 := by omega
      obtain rfl : low = c.toNat % 16 := by omega
      rw [stringChar_of_none hnone, if_pos hcontrol, hexPadded_control _ hcontrol,
        ← String.append_assoc]
      rfl
    · rw [stringChar_of_none hnone, if_neg hplain.not_gt]
  · rintro rfl
    by_cases hshort : ∃ letter, (c, letter) ∈ escapes
    · obtain ⟨letter, h⟩ := hshort
      rw [stringChar_of_short h]
      exact .short h
    have hnone := not_exists.mp hshort
    rw [stringChar_of_none hnone]
    split
    · rename_i hcontrol
      rw [hexPadded_control _ hcontrol, ← String.append_assoc]
      exact .control hnone hcontrol (by omega) (Nat.mod_lt _ (by decide))
        (Nat.div_add_mod _ 16).symm
    · rename_i hplain
      exact .plain hnone (Nat.le_of_not_lt hplain)

/-- So each string has one text. -/
theorem stringPrints_iff : StringPrints s t ↔ t = stringText s := by
  have hpieces : ∀ {cs : List Char} {pieces : List String},
      List.Forall₂ CharPrints cs pieces ↔ pieces = cs.map stringChar := by
    intro cs pieces
    have hprints : CharPrints = fun c t => stringChar c = t :=
      funext fun c => funext fun t => propext (charPrints_iff.trans eq_comm)
    rw [hprints, ← List.forall₂_map_left_iff, List.forall₂_eq_eq_eq, eq_comm]
  unfold StringPrints stringText
  simp only [hpieces, exists_eq_left]

/-! ## Printing values -/

/-- The sign is the top bit. -/
theorem signText_eq (x : Float) : signText x = if x.toBits.toNat >>> 63 = 1 then "-" else "" := by
  have hlt := x.toBits.toNat_lt
  unfold signText
  rw [Nat.shiftRight_eq_div_pow]
  congr 1
  exact propext (by omega)

/-- A real number has one text: its digits are described up to uniqueness, and so is their
    layout. -/
theorem real_prints_iff : (Value.real x).Prints t ↔ t = realText x := by
  have hreal : realText x = signText x ++ (if (Decimal.shortest x).digits = 0 then "0.0"
      else RealLayout.compact.show (Decimal.shortest x)) := by
    rw [signText_eq]
    rfl
  rcases Nat.eq_zero_or_pos (Decimal.magnitudeBits x) with hzero | hpos
  · rw [hreal, Decimal.shortest_of_zero hzero, if_pos rfl]
    constructor
    · rintro (_ | _ | _ | _ | ⟨hpos⟩)
      · rfl
      · omega
    · rintro rfl
      exact .zero hzero
  · have hshortest := Decimal.shortest_spec hpos
    have hdigits : (Decimal.shortest x).digits ≠ 0 := (Decimal.digits_pos hshortest.stripped).ne'
    have hlayout := Decimal.layout_show hshortest.stripped
    rw [hreal, if_neg hdigits]
    constructor
    · rintro (_ | _ | _ | ⟨hzero⟩ | ⟨_, hd, ht⟩)
      · omega
      · rw [hd.unique hshortest] at ht
        rw [ht.unique hlayout]
    · rintro rfl
      exact .real hpos hshortest hlayout

/-- Items are separated by commas, and none stands before the first or behind the last. -/
theorem compactItems_eq (items : List Value) :
    compactItems items = ",".intercalate (items.map Value.compact) := by
  induction items with
  | nil => rfl
  | cons v items ih =>
    cases items with
    | nil => rw [compactItems, List.map_singleton, String.intercalate_singleton]
    | cons w items =>
      rw [compactItems, ih]
      · simp only [List.map_cons, String.intercalate_cons_cons]
      · exact nofun

/-- And so are members. -/
theorem compactMembers_eq (members : List (String × Value)) : compactMembers members
    = ",".intercalate (members.map fun m => stringText m.1 ++ ":" ++ m.2.compact) := by
  induction members with
  | nil => rfl
  | cons m members ih =>
    cases members with
    | nil => rw [compactMembers, List.map_singleton, String.intercalate_singleton]
    | cons m' members =>
      rw [compactMembers, ih]
      · simp only [List.map_cons, String.intercalate_cons_cons]
      · exact nofun

mutual

/-- **The text of a value is the only one that the grammar has for it.** -/
theorem Value.prints_iff : (v : Value) → ∀ {t : String}, v.Prints t ↔ t = v.compact
  | .null, t => by
    constructor
    · rintro ⟨⟩
      rfl
    · rintro rfl
      exact .null
  | .bool b, t => by
    constructor
    · rintro ⟨⟩
      rfl
    · rintro rfl
      exact .bool b
  | .integer n, t => by
    have hcompact : (Value.integer n).compact = toString n := by
      rw [Value.compact]
      cases n with
      | ofNat n => rfl
      | negSucc n => exact if_pos (Int.negSucc_lt_zero n)
    rw [hcompact]
    constructor
    · rintro ⟨⟩
      rfl
    · rintro rfl
      exact .integer n
  | .real x, t => real_prints_iff
  | .text s, t => by
    constructor
    · rintro ⟨⟩
      rename_i h
      exact stringPrints_iff.mp h
    · intro h
      exact .text (stringPrints_iff.mpr h)
  | .array items, t => by
    rw [Value.compact, compactItems_eq]
    constructor
    · rintro ⟨⟩
      rename_i h
      rw [(itemsPrint_iff items).mp h]
    · rintro rfl
      exact .array ((itemsPrint_iff items).mpr rfl)
  | .object members, t => by
    rw [Value.compact, compactMembers_eq]
    constructor
    · rintro ⟨⟩
      rename_i h
      rw [(membersPrint_iff members).mp h]
    · rintro rfl
      exact .object ((membersPrint_iff members).mpr rfl)

theorem itemsPrint_iff : (items : List Value) → ∀ {texts : List String},
    ItemsPrint items texts ↔ texts = items.map Value.compact
  | [], texts => by
    constructor
    · rintro ⟨⟩
      rfl
    · rintro rfl
      exact .nil
  | v :: items, texts => by
    rw [List.map_cons]
    constructor
    · rintro (_ | ⟨hv, hitems⟩)
      rw [(Value.prints_iff v).mp hv, (itemsPrint_iff items).mp hitems]
    · rintro rfl
      exact .cons ((Value.prints_iff v).mpr rfl) ((itemsPrint_iff items).mpr rfl)

theorem membersPrint_iff : (members : List (String × Value)) → ∀ {texts : List String},
    MembersPrint members texts
      ↔ texts = members.map fun m => stringText m.1 ++ ":" ++ m.2.compact
  | [], texts => by
    constructor
    · rintro ⟨⟩
      rfl
    · rintro rfl
      exact .nil
  | (key, v) :: members, texts => by
    rw [List.map_cons]
    constructor
    · rintro (_ | ⟨hkey, hv, hmembers⟩)
      rw [stringPrints_iff.mp hkey, (Value.prints_iff v).mp hv,
        (membersPrint_iff members).mp hmembers]
    · rintro rfl
      exact .cons (stringPrints_iff.mpr rfl) ((Value.prints_iff v).mpr rfl)
        ((membersPrint_iff members).mpr rfl)

end

end CircuitWitness.Json
