import CircuitWitness.Json.Compact
import CircuitWitness.Proofs.Decimal.Shortest
/-
  How a positive number is laid out in decimal.

  The layout is said of the number alone (`Layout`).  From `1e-5` up to `1e16` it is the whole part,
  a point, and the digits behind the point; beyond, it is a first digit that is not zero, the digits
  behind a point, if there are any, and a power of ten with its sign.  No zero stands at the end of
  the digits behind the point, except that a whole number below `1e16` keeps one.

  A number has no two such texts (`Layout.unique`): the whole part is the number rounded down, and
  the digits behind the point are those of a decimal without a zero at the end.  And the text of a
  decimal without a zero at the end is such a text of its value (`layout_show`), because the point
  is put between its digits, or zeros are put between them and the point.
-/

namespace CircuitWitness.Decimal

variable {n n' : ℕ} {fs fs' ws : List Char} {x : ℚ} {d : Digits}

/-! ## Digits and their number -/

/-- A digit is the character of its number. -/
theorem digit_of_isDigit {c : Char} (h : c.isDigit = true) :
    c.toNat - 48 < 10 ∧ (c.toNat - 48).digitChar = c := by
  obtain ⟨hlow, hhigh⟩ : 48 ≤ c.toNat ∧ c.toNat ≤ 57 := Char.isDigit_iff_toNat.mp h
  refine ⟨by omega, Char.toNat_inj.mp ?_⟩
  rw [Nat.toNat_digitChar_of_lt_ten (by omega)]
  omega

theorem isDigit_toDigits (n : ℕ) : ∀ c ∈ Nat.toDigits 10 n, c.isDigit = true :=
  fun _ hc => Nat.isDigit_of_mem_toDigits (by decide) (by decide) hc

theorem isDigit_zeros (m : ℕ) : ∀ c ∈ List.replicate m '0', c.isDigit = true := by
  intro c hc
  rw [List.eq_of_mem_replicate hc]
  rfl

/-- Digits put in front count by the place that they are moved up to. -/
theorem ofDigitChars_append (ws fs : List Char) : Nat.ofDigitChars 10 (ws ++ fs) 0
    = 10 ^ fs.length * Nat.ofDigitChars 10 ws 0 + Nat.ofDigitChars 10 fs 0 := by
  rw [Nat.ofDigitChars_append, Nat.ofDigitChars_eq_ofDigitChars_zero]

theorem ofDigitChars_cons (c : Char) (fs : List Char) : Nat.ofDigitChars 10 (c :: fs) 0
    = 10 ^ fs.length * (c.toNat - 48) + Nat.ofDigitChars 10 fs 0 := by
  rw [Nat.ofDigitChars_cons, Nat.ofDigitChars_eq_ofDigitChars_zero, Nat.mul_zero, Nat.zero_add]
  rfl

/-- So many digits make a number with no more of them. -/
theorem ofDigitChars_lt (h : ∀ c ∈ fs, c.isDigit = true) :
    Nat.ofDigitChars 10 fs 0 < 10 ^ fs.length := by
  induction fs with
  | nil => exact Nat.one_pos
  | cons c fs ih =>
    obtain ⟨hc, hfs⟩ := List.forall_mem_cons.mp h
    have hdigit : c.toNat - 48 ≤ 9 := Nat.le_of_lt_succ (digit_of_isDigit hc).1
    rw [ofDigitChars_cons, List.length_cons, Nat.pow_succ]
    calc 10 ^ fs.length * (c.toNat - 48) + Nat.ofDigitChars 10 fs 0
        < 10 ^ fs.length * 9 + 10 ^ fs.length :=
          Nat.add_lt_add_of_le_of_lt (Nat.mul_le_mul_left _ hdigit) (ih hfs)
      _ = 10 ^ fs.length * 10 := (Nat.mul_succ _ 9).symm

/-- As many digits of the same number are the same digits. -/
theorem eq_of_ofDigitChars : ∀ {fs fs' : List Char} {a b : ℕ}, fs.length = fs'.length →
    (∀ c ∈ fs, c.isDigit = true) → (∀ c ∈ fs', c.isDigit = true) →
    Nat.ofDigitChars 10 fs a = Nat.ofDigitChars 10 fs' b → a = b ∧ fs = fs'
  | [], [], _, _, _, _, _, h => ⟨h, rfl⟩
  | c :: fs, c' :: fs', a, b, hlength, hfs, hfs', h => by
    obtain ⟨hc, hfs⟩ := List.forall_mem_cons.mp hfs
    obtain ⟨hc', hfs'⟩ := List.forall_mem_cons.mp hfs'
    rw [Nat.ofDigitChars_cons, Nat.ofDigitChars_cons] at h
    obtain ⟨hhead, rfl⟩ := eq_of_ofDigitChars (Nat.succ.inj hlength) hfs hfs' h
    have hhead : 10 * a + (c.toNat - 48) = 10 * b + (c'.toNat - 48) := hhead
    obtain ⟨hlt, hchar⟩ := digit_of_isDigit hc
    obtain ⟨hlt', hchar'⟩ := digit_of_isDigit hc'
    have hdigit : c.toNat - 48 = c'.toNat - 48 := by omega
    exact ⟨by omega, by rw [← hchar, ← hchar', hdigit]⟩

/-- Digits that follow those of a number are digits of a number. -/
theorem toDigits_append (hn : 0 < n) (h : ∀ c ∈ fs, c.isDigit = true) :
    Nat.toDigits 10 n ++ fs = Nat.toDigits 10 (Nat.ofDigitChars 10 fs n) := by
  induction fs generalizing n with
  | nil => rw [Nat.ofDigitChars_nil, List.append_nil]
  | cons c fs ih =>
    obtain ⟨hc, hfs⟩ := List.forall_mem_cons.mp h
    obtain ⟨hlt, hchar⟩ := digit_of_isDigit hc
    have hone : Nat.toDigits 10 n ++ [c] = Nat.toDigits 10 (10 * n + (c.toNat - 48)) := by
      rw [← Nat.toDigits_append_toDigits (by decide) hn hlt, Nat.toDigits_of_lt_base hlt, hchar]
    rw [Nat.ofDigitChars_cons, List.append_cons, hone]
    exact ih (by omega) hfs

/-- Digits without a zero in front are those of their number. -/
theorem toDigits_ofDigitChars (hne : ws ≠ []) (h : ∀ c ∈ ws, c.isDigit = true)
    (hhead : ws.head? ≠ some '0') : Nat.toDigits 10 (Nat.ofDigitChars 10 ws 0) = ws := by
  cases ws with
  | nil => exact absurd rfl hne
  | cons c cs =>
    obtain ⟨hc, hcs⟩ := List.forall_mem_cons.mp h
    obtain ⟨hlt, hchar⟩ := digit_of_isDigit hc
    have hpos : 0 < c.toNat - 48 := by
      refine Nat.pos_of_ne_zero fun hzero => hhead ?_
      rw [← hchar, hzero]
      rfl
    have happend := toDigits_append hpos hcs
    rw [Nat.toDigits_of_lt_base hlt, hchar] at happend
    rw [Nat.ofDigitChars_cons, Nat.mul_zero, Nat.zero_add]
    exact happend.symm

/-- No zero stands in front of the digits of a number that is not zero. -/
theorem head?_toDigits (hn : 0 < n) : (Nat.toDigits 10 n).head? ≠ some '0' := by
  intro hhead
  obtain ⟨t, ht⟩ := List.head?_eq_some_iff.mp hhead
  have hdigits := isDigit_toDigits n
  have hvalue : n = Nat.ofDigitChars 10 t 0 := by
    conv_lhs => rw [← Nat.ofDigitChars_ten_toDigits (n := n), ht, ofDigitChars_cons]
    exact Nat.zero_add _
  rw [ht] at hdigits
  have hlt := ofDigitChars_lt fun c hc => hdigits c (List.mem_cons_of_mem _ hc)
  rw [← hvalue] at hlt
  -- Its other digits alone would be too few for it.
  rcases Nat.eq_zero_or_pos t.length with hzero | hpos
  · rw [hzero] at hlt
    omega
  · have hle := (Nat.length_toDigits_le_iff (by decide) hpos).mpr hlt
    rw [ht, List.length_cons] at hle
    omega

/-- And none at the end, unless the number is divided by ten. -/
theorem getLast?_toDigits (hn : n % 10 ≠ 0) : (Nat.toDigits 10 n).getLast? ≠ some '0' := by
  have hlast : (n % 10).digitChar ≠ '0' := fun h => hn (Nat.digitChar_eq_zero.mp h)
  rw [Nat.toDigits_eq_if (by decide)]
  split
  · rename_i hlt
    rw [Nat.mod_eq_of_lt hlt] at hlast
    rw [List.getLast?_singleton]
    exact fun h => hlast (Option.some.inj h)
  · rw [List.getLast?_concat]
    exact fun h => hlast (Option.some.inj h)

/-! ## The layout -/

/-- What digits behind a point add. -/
def fraction (fs : List Char) : ℚ := Nat.ofDigitChars 10 fs 0 / 10 ^ fs.length

/-- Digits as they stand behind a point, without a zero at the end. -/
structure Behind (fs : List Char) : Prop where
  digits : ∀ c ∈ fs, c.isDigit = true
  stripped : fs.getLast? ≠ some '0'

/-- A point and the digits behind it, or what is written when there are none. -/
def pointed (blank : String) (fs : List Char) : String :=
  if fs = [] then blank else "." ++ String.ofList fs

/-- The texts of a positive number. -/
inductive Layout (x : ℚ) : String → Prop
  | positional {n : ℕ} {fs : List Char} (hlow : 10 ^ (-5 : ℤ) ≤ x) (hhigh : x < 10 ^ (16 : ℤ))
      (hfs : Behind fs) (h : n + fraction fs = x) : Layout x (toString n ++ pointed ".0" fs)
  | scientific {n : ℕ} {fs : List Char} {e : ℤ} (hbeyond : x < 10 ^ (-5 : ℤ) ∨ 10 ^ (16 : ℤ) ≤ x)
      (hpos : 0 < n) (hlt : n < 10) (hfs : Behind fs) (h : (n + fraction fs) * 10 ^ e = x) :
      Layout x (toString n ++ pointed "" fs ++ "e" ++ (if e < 0 then "-" else "+") ++
        toString e.natAbs)

theorem fraction_nonneg (fs : List Char) : 0 ≤ fraction fs := by
  unfold fraction
  positivity

/-- Digits behind a point are a decimal, with as many places. -/
theorem fraction_eq_value (fs : List Char) :
    fraction fs = Digits.value ⟨Nat.ofDigitChars 10 fs 0, -fs.length⟩ := by
  unfold fraction Digits.value
  rw [zpow_neg, zpow_natCast, div_eq_mul_inv]

namespace Behind

theorem fraction_lt_one (hfs : Behind fs) : fraction fs < 1 := by
  unfold fraction
  rw [div_lt_one (by positivity)]
  exact_mod_cast ofDigitChars_lt hfs.digits

/-- Digits without a zero at the end are those of a number that is not divided by ten. -/
theorem mod_ten (hfs : Behind fs) (hne : fs ≠ []) : Nat.ofDigitChars 10 fs 0 % 10 ≠ 0 := by
  obtain ⟨ws, c, rfl⟩ := (List.eq_nil_or_concat fs).resolve_left hne
  have hstripped := hfs.stripped
  rw [List.concat_eq_append, List.getLast?_concat] at hstripped
  rw [List.concat_eq_append] at hfs ⊢
  obtain ⟨hlt, hchar⟩ := digit_of_isDigit (hfs.digits c (by simp))
  have hdigit : c.toNat - 48 ≠ 0 := fun hzero => hstripped (by rw [← hchar, hzero]; rfl)
  rw [ofDigitChars_append, ofDigitChars_cons, List.length_singleton, List.length_nil,
    Nat.ofDigitChars_nil]
  omega

/-- They add nothing only if there are none. -/
theorem fraction_eq_zero_iff (hfs : Behind fs) : fraction fs = 0 ↔ fs = [] := by
  constructor
  · intro h
    by_contra hne
    have hzero : Nat.ofDigitChars 10 fs 0 = 0 := by
      unfold fraction at h
      rcases div_eq_zero_iff.mp h with h | h
      · exact_mod_cast h
      · exact absurd h (by positivity)
    exact hfs.mod_ten hne (by rw [hzero])
  · rintro rfl
    exact zero_div _

/-- So what they add determines them. -/
theorem eq_of_fraction (hfs : Behind fs) (hfs' : Behind fs') (h : fraction fs = fraction fs') :
    fs = fs' := by
  by_cases hne : fs = []
  · rw [hfs.fraction_eq_zero_iff.mpr hne] at h
    rw [hne, hfs'.fraction_eq_zero_iff.mp h.symm]
  have hne' : fs' ≠ [] := fun hnil =>
    hne (hfs.fraction_eq_zero_iff.mp (h.trans (hfs'.fraction_eq_zero_iff.mpr hnil)))
  rw [fraction_eq_value, fraction_eq_value] at h
  have hdigits := Digits.eq_of_value (hfs.mod_ten hne) (hfs'.mod_ten hne') h
  injection hdigits with hvalue hlength
  exact (eq_of_ofDigitChars (by omega) hfs.digits hfs'.digits hvalue).2

/-- The whole part is the number rounded down, and the rest is behind the point. -/
theorem eq_of_add (hfs : Behind fs) (hfs' : Behind fs') (h : n + fraction fs = n' + fraction fs') :
    n = n' ∧ fs = fs' := by
  have hpos := fraction_nonneg fs
  have hpos' := fraction_nonneg fs'
  have hlt := hfs.fraction_lt_one
  have hlt' := hfs'.fraction_lt_one
  have hle : n < n' + 1 := by exact_mod_cast (by linarith : (n : ℚ) < n' + 1)
  have hle' : n' < n + 1 := by exact_mod_cast (by linarith : (n' : ℚ) < n + 1)
  obtain rfl : n = n' := by omega
  exact ⟨rfl, hfs.eq_of_fraction hfs' (add_left_cancel h)⟩

/-- A first digit that is not zero says between which powers of ten the number lies. -/
theorem magnitude {e : ℤ} (hfs : Behind fs) (hpos : 0 < n) (hlt : n < 10) :
    (10 : ℚ) ^ e ≤ (n + fraction fs) * 10 ^ e ∧ (n + fraction fs) * 10 ^ e < 10 ^ (e + 1) := by
  have hten := zpow_ten_pos e
  have hone : (1 : ℚ) ≤ n := by exact_mod_cast hpos
  have hnine : (n : ℚ) ≤ 9 := by exact_mod_cast Nat.le_of_lt_succ hlt
  have hnonneg := fraction_nonneg fs
  have hfraction := hfs.fraction_lt_one
  constructor
  · exact le_mul_of_one_le_left hten.le (by linarith)
  · rw [zpow_add_one₀ (by norm_num), mul_comm ((10 : ℚ) ^ e)]
    exact mul_lt_mul_of_pos_right (by linarith) hten

end Behind

/-- **A number has no two texts.** -/
theorem Layout.unique {t t' : String} (h : Layout x t) (h' : Layout x t') : t = t' := by
  cases h with
  | positional hlow hhigh hfs hx =>
    cases h' with
    | positional _ _ hfs' hx' =>
      obtain ⟨rfl, rfl⟩ := hfs.eq_of_add hfs' (hx.trans hx'.symm)
      rfl
    | scientific hbeyond =>
      exact absurd hbeyond (not_or.mpr ⟨hlow.not_gt, hhigh.not_ge⟩)
  | @scientific n fs e hbeyond hpos hlt hfs hx =>
    cases h' with
    | positional hlow hhigh =>
      exact absurd hbeyond (not_or.mpr ⟨hlow.not_gt, hhigh.not_ge⟩)
    | @scientific n' fs' e' _ hpos' hlt' hfs' hx' =>
      obtain ⟨hlow, hhigh⟩ := hfs.magnitude (e := e) hpos hlt
      obtain ⟨hlow', hhigh'⟩ := hfs'.magnitude (e := e') hpos' hlt'
      rw [hx] at hlow hhigh
      rw [hx'] at hlow' hhigh'
      have hten : (1 : ℚ) < 10 := by norm_num
      have hle := (zpow_lt_zpow_iff_right₀ hten).mp (hlow.trans_lt hhigh')
      have hle' := (zpow_lt_zpow_iff_right₀ hten).mp (hlow'.trans_lt hhigh)
      obtain rfl : e = e' := by omega
      have hsame := mul_right_cancel₀ (zpow_ten_pos e).ne' (hx.trans hx'.symm)
      obtain ⟨rfl, rfl⟩ := hfs.eq_of_add hfs' hsame
      rfl

/-! ## How digits are shown -/

/-- The value of digits with a point put between them. -/
theorem value_of_append (hd : Nat.toDigits 10 d.digits = ws ++ fs) :
    (Nat.ofDigitChars 10 ws 0 + fraction fs) * 10 ^ (d.exponent + fs.length) = d.value := by
  have hten : (10 : ℚ) ^ fs.length ≠ 0 := by positivity
  have hdigits : d.digits = 10 ^ fs.length * Nat.ofDigitChars 10 ws 0
      + Nat.ofDigitChars 10 fs 0 := by
    rw [← ofDigitChars_append, ← hd, Nat.ofDigitChars_ten_toDigits]
  unfold Digits.value fraction
  rw [hdigits, zpow_add₀ (by norm_num), zpow_natCast]
  push_cast
  field_simp

/-- The digits lie between two powers of ten. -/
theorem value_bounds (hd : 0 < d.digits) :
    (10 : ℚ) ^ (d.count + d.exponent - 1) ≤ d.value ∧ d.value < 10 ^ (d.count + d.exponent) := by
  have hten : (10 : ℚ) ≠ 0 := by norm_num
  have hpos := zpow_ten_pos d.exponent
  obtain ⟨hlow, hhigh⟩ := leading_digit Nat.one_pos hd
  rw [Nat.div_one, Nat.cast_one, div_one] at hlow hhigh
  unfold Digits.value Digits.count
  rw [add_sub_right_comm, zpow_add₀ hten, zpow_add₀ hten]
  rw [sub_add_cancel] at hhigh
  exact ⟨mul_le_mul_of_nonneg_right hlow hpos.le, mul_lt_mul_of_pos_right hhigh hpos⟩

section

variable (hd : d.digits % 10 ≠ 0)

include hd

theorem digits_pos : 0 < d.digits := Nat.pos_of_ne_zero fun h => hd (by rw [h])

/-- The laws that digits of a decimal without a zero at the end have when they are taken apart: the
    hind part may stand behind a point, -/
theorem behind_of_append (h : Nat.toDigits 10 d.digits = ws ++ fs) : Behind fs := by
  refine ⟨fun c hc => isDigit_toDigits d.digits c (h ▸ List.mem_append_right _ hc), ?_⟩
  rcases eq_or_ne fs [] with rfl | hne
  · exact nofun
  · have hlast := getLast?_toDigits hd
    rwa [h, List.getLast?_append_of_ne_nil _ hne] at hlast

/-- and the front part is what its number is written as. -/
theorem toString_of_append (h : Nat.toDigits 10 d.digits = ws ++ fs) (hne : ws ≠ []) :
    toString (Nat.ofDigitChars 10 ws 0) = String.ofList ws := by
  have hhead := head?_toDigits (digits_pos hd)
  rw [h, List.head?_append_of_ne_nil _ hne] at hhead
  rw [Nat.toString_eq_ofList_toDigits, toDigits_ofDigitChars hne
    (fun c hc => isDigit_toDigits d.digits c (h ▸ List.mem_append_left _ hc)) hhead]

/-- What is shown positionally is what the layout calls so. -/
theorem range_iff : (-5 : ℤ) ≤ d.count + d.exponent - 1 ∧ d.count + d.exponent - 1 ≤ 15 ↔
    10 ^ (-5 : ℤ) ≤ d.value ∧ d.value < 10 ^ (16 : ℤ) := by
  obtain ⟨hlow, hhigh⟩ := value_bounds (digits_pos hd)
  have hten : (1 : ℚ) < 10 := by norm_num
  constructor
  · rintro ⟨h, h'⟩
    exact ⟨((zpow_le_zpow_iff_right₀ hten).mpr h).trans hlow,
      hhigh.trans_le ((zpow_le_zpow_iff_right₀ hten).mpr (by omega))⟩
  · rintro ⟨h, h'⟩
    have hlt := (zpow_lt_zpow_iff_right₀ hten).mp (h.trans_lt hhigh)
    have hlt' := (zpow_lt_zpow_iff_right₀ hten).mp (hlow.trans_lt h')
    omega

/-- Zeros stand between the point and the digits. -/
theorem layout_below {m : ℕ} (hlow : 10 ^ (-5 : ℤ) ≤ d.value) (hhigh : d.value < 10 ^ (16 : ℤ))
    (hm : -(m : ℤ) = d.count + d.exponent) :
    Layout d.value ("0." ++ Json.zeros m ++ String.ofList (Nat.toDigits 10 d.digits)) := by
  have hne : Nat.toDigits 10 d.digits ≠ [] := Nat.toDigits_ne_nil
  have hfs : Behind (List.replicate m '0' ++ Nat.toDigits 10 d.digits) := by
    constructor
    · intro c hc
      rcases List.mem_append.mp hc with hc | hc
      · exact isDigit_zeros m c hc
      · exact isDigit_toDigits _ c hc
    · rw [List.getLast?_append_of_ne_nil _ hne]
      exact getLast?_toDigits hd
  have hvalue : (0 : ℕ) + fraction (List.replicate m '0' ++ Nat.toDigits 10 d.digits)
      = d.value := by
    have hexp : -((List.replicate m '0' ++ Nat.toDigits 10 d.digits).length : ℤ)
        = d.exponent := by
      unfold Digits.count at hm
      rw [List.length_append, List.length_replicate]
      omega
    rw [fraction_eq_value, hexp, ofDigitChars_append, Nat.ofDigitChars_replicate_zero,
      Nat.ofDigitChars_ten_toDigits, Nat.mul_zero, Nat.mul_zero, Nat.zero_add, Nat.cast_zero,
      zero_add]
  have htext : "0." ++ Json.zeros m ++ String.ofList (Nat.toDigits 10 d.digits)
      = toString 0 ++ pointed ".0" (List.replicate m '0' ++ Nat.toDigits 10 d.digits) := by
    unfold pointed Json.zeros
    rw [if_neg (List.append_ne_nil_of_right_ne_nil _ hne), String.ofList_append,
      ← String.append_assoc, ← String.append_assoc]
    rfl
  rw [htext]
  exact .positional hlow hhigh hfs hvalue

/-- The point stands between the digits. -/
theorem layout_between (hlow : 10 ^ (-5 : ℤ) ≤ d.value) (hhigh : d.value < 10 ^ (16 : ℤ))
    (h : Nat.toDigits 10 d.digits = ws ++ fs) (hws : ws ≠ []) (hne : fs ≠ [])
    (hexp : d.exponent + fs.length = 0) :
    Layout d.value (String.ofList ws ++ "." ++ String.ofList fs) := by
  have hvalue := value_of_append h
  rw [hexp, zpow_zero, mul_one] at hvalue
  have htext : String.ofList ws ++ "." ++ String.ofList fs
      = toString (Nat.ofDigitChars 10 ws 0) ++ pointed ".0" fs := by
    unfold pointed
    rw [if_neg hne, toString_of_append hd h hws, String.append_assoc]
  rw [htext]
  exact .positional hlow hhigh (behind_of_append hd h) hvalue

/-- Zeros stand between the digits and the point. -/
theorem layout_above {m : ℕ} (hlow : 10 ^ (-5 : ℤ) ≤ d.value) (hhigh : d.value < 10 ^ (16 : ℤ))
    (hm : (m : ℤ) = d.exponent) :
    Layout d.value (String.ofList (Nat.toDigits 10 d.digits) ++ Json.zeros m ++ ".0") := by
  have hvalue : ((10 ^ m * d.digits : ℕ) : ℚ) + fraction [] = d.value := by
    have hnil : fraction [] = 0 := zero_div _
    unfold Digits.value
    rw [hnil, ← hm, zpow_natCast]
    push_cast
    ring
  have htext : String.ofList (Nat.toDigits 10 d.digits) ++ Json.zeros m ++ ".0"
      = toString (10 ^ m * d.digits) ++ pointed ".0" [] := by
    unfold pointed Json.zeros
    rw [if_pos rfl, ← String.ofList_append, toDigits_append (digits_pos hd) (isDigit_zeros m),
      Nat.ofDigitChars_replicate_zero, Nat.toString_eq_ofList_toDigits]
  rw [htext]
  exact .positional hlow hhigh ⟨nofun, nofun⟩ hvalue

/-- A power of ten stands behind the digits. -/
theorem layout_beyond {c : Char} {e : ℤ}
    (hbeyond : d.value < 10 ^ (-5 : ℤ) ∨ 10 ^ (16 : ℤ) ≤ d.value)
    (h : Nat.toDigits 10 d.digits = [c] ++ fs) (he : e = d.exponent + fs.length) :
    Layout d.value (String.ofList [c] ++ (if fs.isEmpty then "" else "." ++ String.ofList fs) ++
      "e" ++ (if e < 0 then "-" else "+") ++ Nat.repr e.natAbs) := by
  have hne : [c] ≠ [] := List.cons_ne_nil _ _
  have hdigit : ∀ a ∈ [c], a.isDigit = true := fun a ha =>
    isDigit_toDigits d.digits a (h ▸ List.mem_append_left _ ha)
  have hpos : 0 < Nat.ofDigitChars 10 [c] 0 := by
    have hhead := head?_toDigits (digits_pos hd)
    rw [h, List.head?_append_of_ne_nil _ hne] at hhead
    refine Nat.pos_of_ne_zero fun hzero => hhead ?_
    have hc := toDigits_ofDigitChars hne hdigit hhead
    rw [hzero, Nat.toDigits_zero] at hc
    rw [← hc, List.head?_cons]
  have htext : (if fs.isEmpty then "" else "." ++ String.ofList fs) = pointed "" fs := by
    unfold pointed
    simp only [List.isEmpty_iff]
  have hvalue := value_of_append h
  rw [← he] at hvalue
  rw [← toString_of_append hd h hne, htext]
  exact .scientific hbeyond hpos (ofDigitChars_lt hdigit) (behind_of_append hd h) hvalue

/-- The text of digits without a zero at the end is that of their value. -/
theorem layout_show : Layout d.value (Json.RealLayout.compact.show d) := by
  have hds : (Nat.repr d.digits).toList = Nat.toDigits 10 d.digits := Nat.toList_repr
  have hlength : ((Nat.toDigits 10 d.digits).length : ℤ) = d.count := rfl
  unfold Json.RealLayout.show Json.RealLayout.compact
  dsimp only
  rw [hds, hlength]
  split
  · rename_i hrange
    obtain ⟨hlow, hhigh⟩ := (range_iff hd).mp hrange
    split
    · exact layout_below hd hlow hhigh (by omega)
    split
    · have hlength : (Nat.toDigits 10 d.digits).length = d.count := rfl
      refine layout_between hd hlow hhigh (List.take_append_drop _ _).symm ?_ ?_ ?_
      · refine List.ne_nil_of_length_pos ?_
        rw [List.length_take, hlength]
        omega
      · refine List.ne_nil_of_length_pos ?_
        rw [List.length_drop, hlength]
        omega
      · rw [List.length_drop, hlength]
        omega
    · exact layout_above hd hlow hhigh (by omega)
  · rename_i hrange
    rw [range_iff hd, not_and_or, not_le, not_lt] at hrange
    obtain ⟨c, fs, h⟩ := List.exists_cons_of_ne_nil (Nat.toDigits_ne_nil (n := d.digits) (b := 10))
    have he : d.count + d.exponent - 1 = d.exponent + fs.length := by
      unfold Digits.count
      rw [h, List.length_cons]
      omega
    rw [h]
    exact layout_beyond hd hrange h he

end

end CircuitWitness.Decimal
