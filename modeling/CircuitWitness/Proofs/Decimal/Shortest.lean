import Mathlib.Algebra.Order.Field.Power
import Mathlib.Algebra.Order.Field.Rat
import Mathlib.Data.Rat.Cast.Order
import Mathlib.Tactic.FieldSimp
import Mathlib.Tactic.Linarith
import Mathlib.Tactic.Positivity
import Mathlib.Tactic.Ring
import CircuitWitness.Decimal.Shortest
/-
  The shortest digits of a number are the shortest, and of these the nearest.

  What is to be expected of them is said over the rationals (`Shortest`): they round to the number,
  no decimal of fewer digits does, none of as many digits that does is nearer, and where another is
  as near, they are the even ones.  No two decimals have all of that (`Shortest.unique`).

  The search goes through the decimal grids at the number's own magnitude, the coarsest first.  On
  one grid, the points that round to the number lie between two others that do, or around the number
  itself; so if there are any, one of the two neighbours of the number is among them, and the better
  of these is the best of the grid (`Binary.Neighbour`).  The crux is that a decimal of `n + 1`
  digits that rounds to the number leads to a point of the grid for `n + 1` digits that does: either
  it lies on that grid, or it is below all numbers of this magnitude, and then the least of them,
  which is on the grid, rounds to the number too (`Binary.exists_on_grid`).  So a grid on which
  there is nothing rules out all decimals of its number of digits, and the grid for seventeen digits
  is finer than the interval is wide.
-/

namespace CircuitWitness.Decimal

/-! ## What is to be expected -/

/-- The number that some digits stand for. -/
def Digits.value (d : Digits) : ℚ := d.digits * 10 ^ d.exponent

/-- How many digits there are. -/
def Digits.count (d : Digits) : Nat := (Nat.toDigits 10 d.digits).length

/-- The shortest digits of a number `x`, where `R` are the numbers that round to `x`. -/
structure Shortest (R : ℚ → Prop) (x : ℚ) (d : Digits) : Prop where
  rounds : R d.value
  /-- A zero at the end is not written. -/
  stripped : d.digits % 10 ≠ 0
  fewest : ∀ d' : Digits, R d'.value → d.count ≤ d'.count
  nearest : ∀ d' : Digits, R d'.value → d'.count = d.count → |d.value - x| ≤ |d'.value - x|
  /-- Of two that are equally near, it is the one that is an even multiple of their distance. -/
  even : ∀ d' : Digits, R d'.value → d'.count = d.count → |d'.value - x| = |d.value - x| →
    d'.value ≠ d.value → ∃ i : ℕ, d.value = 2 * i * |d'.value - d.value|

variable {d d' : Digits} {k : ℤ} {n : ℕ}

/-- Digits are counted by the powers of ten above them. -/
theorem Digits.count_le_iff (hn : 0 < n) : d.count ≤ n ↔ d.digits < 10 ^ n :=
  Nat.length_toDigits_le_iff (by decide) hn

theorem Digits.count_pos (d : Digits) : 0 < d.count := Nat.length_toDigits_pos

/-- Digits without a zero at the end are determined by their value. -/
theorem Digits.eq_of_value (hd : d.digits % 10 ≠ 0) (hd' : d'.digits % 10 ≠ 0)
    (h : d.value = d'.value) : d = d' := by
  wlog hle : d.exponent ≤ d'.exponent generalizing d d'
  · exact (this hd' hd h.symm (by omega)).symm
  obtain ⟨t, ht⟩ := Int.le.dest hle
  have hdigits : d.digits = d'.digits * 10 ^ t := by
    unfold value at h
    rw [← ht, zpow_add₀ (by norm_num), mul_comm ((10 : ℚ) ^ d.exponent), ← mul_assoc] at h
    have hcancel := mul_right_cancel₀ (zpow_ne_zero d.exponent (by norm_num)) h
    rw [zpow_natCast] at hcancel
    exact_mod_cast hcancel
  cases t with
  | zero =>
    rw [pow_zero, mul_one] at hdigits
    rw [Int.ofNat_zero, add_zero] at ht
    cases d
    cases d'
    simp_all
  | succ t =>
    rw [hdigits, pow_succ, ← mul_assoc] at hd
    exact absurd (Nat.mul_mod_left _ _) hd

/-- **The shortest digits are unique.** -/
theorem Shortest.unique {R : ℚ → Prop} {x : ℚ} (h : Shortest R x d) (h' : Shortest R x d') :
    d = d' := by
  refine Digits.eq_of_value h.stripped h'.stripped ?_
  have hcount : d'.count = d.count :=
    Nat.le_antisymm (h'.fewest d h.rounds) (h.fewest d' h'.rounds)
  have hdist : |d'.value - x| = |d.value - x| :=
    le_antisymm (h'.nearest d h.rounds hcount.symm) (h.nearest d' h'.rounds hcount)
  by_contra hne
  obtain ⟨i, hi⟩ := h.even d' h'.rounds hcount hdist (Ne.symm hne)
  obtain ⟨j, hj⟩ := h'.even d h.rounds hcount.symm hdist.symm hne
  -- Two even multiples of their distance would be at least two of it apart.
  rw [abs_sub_comm] at hj
  have hpos : 0 < |d'.value - d.value| := abs_pos.mpr (sub_ne_zero.mpr (Ne.symm hne))
  generalize hδ : |d'.value - d.value| = δ at hi hj hpos
  have hdiff : |(2 * j - 2 * i : ℚ)| * δ = 1 * δ :=
    calc |(2 * j - 2 * i : ℚ)| * δ = |(2 * j - 2 * i : ℚ) * δ| := by rw [abs_mul, abs_of_pos hpos]
      _ = |d'.value - d.value| := by rw [hi, hj, sub_mul]
      _ = 1 * δ := by rw [hδ, one_mul]
  have hone : |(2 * j - 2 * i : ℤ)| = 1 := by exact_mod_cast mul_right_cancel₀ hpos.ne' hdiff
  rcases (abs_eq one_pos.le).mp hone with h | h <;> omega

/-! ## Powers of ten -/

/-- A power of a natural number is a natural number, or one over it. -/
theorem zpow_eq_div (a : ℕ) (k : ℤ) :
    (a : ℚ) ^ k = (a ^ k.toNat : ℕ) / (a ^ (-k).toNat : ℕ) := by
  rcases le_total 0 k with hk | hk
  · obtain ⟨m, rfl⟩ := Int.eq_ofNat_of_zero_le hk
    simp
  · obtain ⟨m, hm⟩ := Int.eq_ofNat_of_zero_le (Int.neg_nonneg.mpr hk)
    obtain rfl : k = -(m : ℤ) := by omega
    simp

theorem zpow_ten (k : ℤ) : (10 : ℚ) ^ k = (10 ^ k.toNat : ℕ) / (10 ^ (-k).toNat : ℕ) :=
  zpow_eq_div 10 k

theorem zpow_ten_pos (k : ℤ) : (0 : ℚ) < 10 ^ k := zpow_pos (by norm_num) k

/-- How many digits a whole part has says between which powers of ten the number lies. -/
theorem leading_digit {m den : ℕ} (hden : 0 < den) (hm : den ≤ m) :
    (10 : ℚ) ^ (((Nat.toDigits 10 (m / den)).length : ℤ) - 1) ≤ m / den ∧
    (m / den : ℚ) < 10 ^ (((Nat.toDigits 10 (m / den)).length : ℤ) - 1 + 1) := by
  obtain ⟨l, hl⟩ : ∃ l, (Nat.toDigits 10 (m / den)).length = l + 1 :=
    Nat.exists_eq_succ_of_ne_zero Nat.length_toDigits_pos.ne'
  have hdenq : (0 : ℚ) < den := Nat.cast_pos.mpr hden
  have hlow : 10 ^ l ≤ m / den := by
    rcases Nat.eq_zero_or_pos l with rfl | hpos
    · rw [pow_zero, Nat.one_le_div_iff hden]
      exact hm
    · rw [← Nat.not_lt, ← Nat.length_toDigits_le_iff (by decide) hpos, hl]
      omega
  have hhigh : m / den < 10 ^ (l + 1) :=
    (Nat.length_toDigits_le_iff (by decide) (Nat.succ_pos l)).mp hl.le
  rw [hl, Nat.cast_succ, add_sub_cancel_right]
  constructor
  · rw [zpow_natCast, le_div_iff₀ hdenq]
    exact_mod_cast (Nat.le_div_iff_mul_le hden).mp hlow
  · rw [← Nat.cast_succ, zpow_natCast, div_lt_iff₀ hdenq]
    exact_mod_cast (Nat.div_lt_iff_lt_mul hden).mp hhigh

namespace Binary

variable {b : Binary}

/-- The step in which a number and its interval are measured. -/
def scale (b : Binary) : ℚ := b.num / b.den

/-- The number itself. -/
def exact (b : Binary) : ℚ := b.value * b.scale

/-- What rounds to the number: the interval around it. -/
def Rounds (b : Binary) (y : ℚ) : Prop :=
  if b.closed then b.low * b.scale ≤ y ∧ y ≤ b.high * b.scale
  else b.low * b.scale < y ∧ y < b.high * b.scale

/-- A positive number with an interval around it that is not too narrow, and neither of them too
    close to zero. -/
structure Sound (b : Binary) : Prop where
  num : 0 < b.num
  den : 0 < b.den
  positive : 0 < b.low
  below : b.low < b.value
  above : b.value < b.high
  wide : b.value < 10 ^ 16 * (b.high - b.low)
  large : b.den ≤ b.value * b.num * 10 ^ 400

/-- How often a step of a grid fits into the number. -/
def floor (b : Binary) (k : ℤ) : ℕ :=
  b.value * b.num * Nat.pow 10 (-k).toNat / (Nat.pow 10 k.toNat * b.den)

/-- How far below the number its lower neighbour is, on the scale of the search. -/
def down (b : Binary) (k : ℤ) : ℕ :=
  b.value * b.num * Nat.pow 10 (-k).toNat - b.floor k * (Nat.pow 10 k.toNat * b.den)

/-- How far above the number its upper neighbour is. -/
def up (b : Binary) (k : ℤ) : ℕ :=
  (b.floor k + 1) * (Nat.pow 10 k.toNat * b.den) - b.value * b.num * Nat.pow 10 (-k).toNat

theorem neighbour?_eq (b : Binary) (k : ℤ) : b.neighbour? k =
    match b.covers (b.floor k) k, b.covers (b.floor k + 1) k with
    | false, false => none
    | true, false => some ⟨b.floor k, k⟩
    | false, true => some ⟨b.floor k + 1, k⟩
    | true, true =>
      if b.down k < b.up k ∨ (b.down k = b.up k ∧ b.floor k % 2 = 0) then some ⟨b.floor k, k⟩
      else some ⟨b.floor k + 1, k⟩ := rfl

/-- The best point of a grid: it rounds to the number, is the nearest that does, and the even one
    of two. -/
structure Neighbour (b : Binary) (k : ℤ) (d : ℕ) : Prop where
  rounds : b.Rounds (d * 10 ^ k)
  near : d = b.floor k ∨ d = b.floor k + 1
  nearest : ∀ j : ℕ, b.Rounds (j * 10 ^ k) → |d * 10 ^ k - b.exact| ≤ |j * 10 ^ k - b.exact|
  even : ∀ j : ℕ, b.Rounds (j * 10 ^ k) → |j * 10 ^ k - b.exact| = |d * 10 ^ k - b.exact| →
    j ≠ d → d % 2 = 0 ∧ |(j * 10 ^ k - d * 10 ^ k : ℚ)| = 10 ^ k

/-- What lies strictly inside of the interval rounds to the number. -/
theorem Rounds.of_inside {y : ℚ} (hlow : b.low * b.scale < y) (hhigh : y < b.high * b.scale) :
    b.Rounds y := by
  unfold Rounds
  split
  · exact ⟨hlow.le, hhigh.le⟩
  · exact ⟨hlow, hhigh⟩

/-- What lies between two numbers that round to the number does so too. -/
theorem Rounds.between {x y z : ℚ} (hx : b.Rounds x) (hz : b.Rounds z) (hxy : x ≤ y)
    (hyz : y ≤ z) : b.Rounds y := by
  unfold Rounds at *
  split at hx <;> simp_all <;> constructor <;> linarith

namespace Sound

variable (h : b.Sound)
include h

/-- What a sound number owes to its interval: it measures in a positive step, -/
theorem scale_pos : 0 < b.scale :=
  div_pos (Nat.cast_pos.mpr h.num) (Nat.cast_pos.mpr h.den)

/-- and lies strictly inside, -/
theorem low_lt_exact : b.low * b.scale < b.exact :=
  mul_lt_mul_of_pos_right (Nat.cast_lt.mpr h.below) h.scale_pos

theorem exact_lt_high : b.exact < b.high * b.scale :=
  mul_lt_mul_of_pos_right (Nat.cast_lt.mpr h.above) h.scale_pos

/-- so it rounds to itself. -/
theorem rounds_exact : b.Rounds b.exact := .of_inside h.low_lt_exact h.exact_lt_high

/-- Nothing that rounds to it is zero or below. -/
theorem pos_of_rounds {y : ℚ} (hy : b.Rounds y) : 0 < y := by
  have hlow : 0 < (b.low : ℚ) * b.scale := mul_pos (Nat.cast_pos.mpr h.positive) h.scale_pos
  unfold Rounds at hy
  split at hy
  · exact hlow.trans_le hy.1
  · exact hlow.trans hy.1

/-- Products on the two sides of `covers` compare as the numbers do. -/
theorem cross (m d : ℕ) (k : ℤ) :
    (m * (b.num * 10 ^ (-k).toNat) ≤ d * 10 ^ k.toNat * b.den ↔ (m * b.scale : ℚ) ≤ d * 10 ^ k) ∧
    (d * 10 ^ k.toNat * b.den ≤ m * (b.num * 10 ^ (-k).toNat) ↔
      (d * 10 ^ k : ℚ) ≤ m * b.scale) := by
  have hden : (0 : ℚ) < b.den := Nat.cast_pos.mpr h.den
  have hten : (0 : ℚ) < (10 ^ (-k).toNat : ℕ) := Nat.cast_pos.mpr (by positivity)
  have hleft : (m * b.scale : ℚ) = (m * b.num : ℕ) / b.den := by
    unfold scale
    push_cast
    ring
  have hright : (d * 10 ^ k : ℚ) = (d * 10 ^ k.toNat : ℕ) / (10 ^ (-k).toNat : ℕ) := by
    rw [zpow_ten]
    push_cast
    ring
  rw [hleft, hright, div_le_div_iff₀ hden hten, div_le_div_iff₀ hten hden]
  constructor
  · rw [← mul_assoc]
    exact_mod_cast Iff.rfl
  · rw [← mul_assoc]
    exact_mod_cast Iff.rfl

/-- What the search asks of a point of a grid is whether it rounds to the number. -/
theorem covers_iff (d : ℕ) (k : ℤ) : b.covers d k = true ↔ b.Rounds (d * 10 ^ k) := by
  obtain ⟨hlow, hlow'⟩ := h.cross b.low d k
  obtain ⟨hhigh, hhigh'⟩ := h.cross b.high d k
  unfold covers Rounds
  split
  · simp only [Bool.and_eq_true, decide_eq_true_eq, Nat.pow_eq]
    exact and_congr hlow hhigh'
  · simp only [Bool.and_eq_true, decide_eq_true_eq, Nat.pow_eq, ← not_le]
    exact and_congr (not_congr hlow') (not_congr hhigh)

/-- Up to its first digit, the number is a power of ten. -/
theorem magnitude_spec :
    (10 : ℚ) ^ b.magnitude ≤ b.exact ∧ b.exact < 10 ^ (b.magnitude + 1) := by
  have hten : (10 : ℚ) ≠ 0 := by norm_num
  obtain ⟨hlow, hhigh⟩ := leading_digit h.den h.large
  have hmag : b.magnitude
      = ((Nat.toDigits 10 (b.value * b.num * 10 ^ 400 / b.den)).length : ℤ) - 1 + -400 := by
    have hpow : ∀ n, Nat.pow 10 n = 10 ^ n := fun _ => Nat.pow_eq
    unfold magnitude
    rw [hpow 400]
    generalize List.length _ = l
    omega
  have hexact : b.exact = (b.value * b.num * 10 ^ 400 : ℕ) / b.den * 10 ^ (-400 : ℤ) := by
    have hcancel : (10 : ℚ) ^ 400 * 10 ^ (-400 : ℤ) = 1 := by
      rw [← zpow_natCast, ← zpow_add₀ hten]
      rfl
    unfold exact scale
    rw [Nat.cast_mul, Nat.cast_pow, Nat.cast_mul, Nat.cast_ofNat, div_mul_eq_mul_div, mul_assoc,
      hcancel, mul_one, mul_div_assoc]
  rw [hmag, hexact, zpow_add₀ hten]
  refine ⟨mul_le_mul_of_nonneg_right hlow (zpow_ten_pos _).le, ?_⟩
  rw [add_right_comm, zpow_add₀ hten]
  exact mul_lt_mul_of_pos_right hhigh (zpow_ten_pos _)

/-- The number lies between two neighbours on each grid. -/
theorem floor_spec (k : ℤ) :
    b.floor k * 10 ^ k ≤ b.exact ∧ b.exact < (b.floor k + 1 : ℕ) * 10 ^ k := by
  have hgrid : 0 < 10 ^ k.toNat * b.den := Nat.mul_pos (Nat.pow_pos (by decide)) h.den
  have hfloor : b.floor k = b.value * (b.num * 10 ^ (-k).toNat) / (10 ^ k.toNat * b.den) := by
    unfold floor
    rw [Nat.pow_eq, Nat.pow_eq, mul_assoc]
  constructor
  · refine (h.cross b.value _ k).2.mp ?_
    rw [mul_assoc, ← Nat.le_div_iff_mul_le hgrid, hfloor]
  · refine not_le.mp fun hle => ?_
    have hcross := (h.cross b.value _ k).2.mpr hle
    rw [mul_assoc, ← Nat.le_div_iff_mul_le hgrid, ← hfloor] at hcross
    exact absurd hcross (Nat.not_succ_le_self _)

/-- Of the two neighbours, the one on the side of a point is at least as near as the point, and it
    rounds to the number if the point does. -/
theorem exists_nearer (k : ℤ) (j : ℕ) : ∃ e, (e = b.floor k ∨ e = b.floor k + 1) ∧
    (b.Rounds (j * 10 ^ k) → b.Rounds (e * 10 ^ k)) ∧
    |e * 10 ^ k - b.exact| ≤ |j * 10 ^ k - b.exact| ∧
    (|j * 10 ^ k - b.exact| = |e * 10 ^ k - b.exact| → j = e) := by
  obtain ⟨hlow, hhigh⟩ := h.floor_spec k
  have hpos := zpow_ten_pos k
  have hsame : ∀ {e : ℕ}, (j * 10 ^ k : ℚ) = e * 10 ^ k → j = e := fun he =>
    Nat.cast_injective (mul_right_cancel₀ hpos.ne' he)
  rcases Nat.lt_or_ge (b.floor k) j with hj | hj
  · have hle : ((b.floor k + 1 : ℕ) * 10 ^ k : ℚ) ≤ j * 10 ^ k :=
      mul_le_mul_of_nonneg_right (Nat.cast_le.mpr hj) hpos.le
    refine ⟨b.floor k + 1, .inr rfl, fun hr => h.rounds_exact.between hr hhigh.le hle, ?_⟩
    rw [abs_of_nonneg (by linarith), abs_of_nonneg (by linarith)]
    exact ⟨by linarith, fun he => hsame (by linarith)⟩
  · have hle : (j * 10 ^ k : ℚ) ≤ b.floor k * 10 ^ k :=
      mul_le_mul_of_nonneg_right (Nat.cast_le.mpr hj) hpos.le
    refine ⟨b.floor k, .inl rfl, fun hr => hr.between h.rounds_exact hle hlow, ?_⟩
    rw [abs_of_nonpos (by linarith), abs_of_nonpos (by linarith)]
    exact ⟨by linarith, fun he => hsame (by linarith)⟩

/-- A neighbour that rounds to the number is the best point, unless the other one is better. -/
theorem neighbour_of {k : ℤ} {d d' : ℕ}
    (hd : d = b.floor k ∧ d' = b.floor k + 1 ∨ d = b.floor k + 1 ∧ d' = b.floor k)
    (hrounds : b.Rounds (d * 10 ^ k))
    (hbest : b.Rounds (d' * 10 ^ k) → |d * 10 ^ k - b.exact| < |d' * 10 ^ k - b.exact| ∨
      |d * 10 ^ k - b.exact| = |d' * 10 ^ k - b.exact| ∧ d % 2 = 0) : b.Neighbour k d := by
  have hpos := zpow_ten_pos k
  have hnear : ∀ j : ℕ, b.Rounds (j * 10 ^ k) →
      (|d * 10 ^ k - b.exact| ≤ |j * 10 ^ k - b.exact| ∧
        (|j * 10 ^ k - b.exact| = |d * 10 ^ k - b.exact| → j = d ∨ j = d' ∧ d % 2 = 0)) := by
    intro j hj
    obtain ⟨e, he, hr, hle, heq⟩ := h.exists_nearer k j
    obtain rfl | rfl : e = d ∨ e = d' := by omega
    · exact ⟨hle, fun htie => .inl (heq htie)⟩
    · rcases hbest (hr hj) with hlt | ⟨htie, heven⟩
      · exact ⟨hlt.le.trans hle, fun he' => absurd (he' ▸ hlt.trans_le hle) (lt_irrefl _)⟩
      · exact ⟨htie ▸ hle, fun he' => .inr ⟨heq (he'.trans htie), heven⟩⟩
  refine ⟨hrounds, by omega, fun j hj => (hnear j hj).1, fun j hj htie hne => ?_⟩
  obtain ⟨rfl, heven⟩ := ((hnear j hj).2 htie).resolve_left hne
  -- The two neighbours are one step apart.
  refine ⟨heven, ?_⟩
  rw [← sub_mul, abs_mul, abs_of_pos hpos, mul_eq_right₀ hpos.ne']
  rcases hd with ⟨rfl, rfl⟩ | ⟨rfl, rfl⟩ <;> simp

/-- The distances that the search compares are those of the neighbours. -/
theorem distances (k : ℤ) : ∃ c : ℚ, 0 < c ∧
    (b.down k : ℚ) = |b.floor k * 10 ^ k - b.exact| * c ∧
    (b.up k : ℚ) = |(b.floor k + 1 : ℕ) * 10 ^ k - b.exact| * c := by
  obtain ⟨hlow, hhigh⟩ := h.floor_spec k
  have hden : (b.den : ℚ) ≠ 0 := Nat.cast_ne_zero.mpr h.den.ne'
  have hten : ((10 ^ (-k).toNat : ℕ) : ℚ) ≠ 0 := Nat.cast_ne_zero.mpr (by positivity)
  have hgrid : 0 < Nat.pow 10 k.toNat * b.den := Nat.mul_pos (Nat.pow_pos (by decide)) h.den
  have hexact : ((b.value * b.num * Nat.pow 10 (-k).toNat : ℕ) : ℚ)
      = b.exact * (b.den * (10 ^ (-k).toNat : ℕ)) := by
    unfold exact scale
    rw [Nat.pow_eq]
    push_cast
    field_simp
  have hstep : ((Nat.pow 10 k.toNat * b.den : ℕ) : ℚ)
      = 10 ^ k * (b.den * (10 ^ (-k).toNat : ℕ)) := by
    rw [zpow_ten, Nat.pow_eq]
    push_cast
    field_simp
  have hlower : b.floor k * (Nat.pow 10 k.toNat * b.den)
      ≤ b.value * b.num * Nat.pow 10 (-k).toNat := Nat.div_mul_le_self _ _
  have hupper : b.value * b.num * Nat.pow 10 (-k).toNat
      ≤ (b.floor k + 1) * (Nat.pow 10 k.toNat * b.den) :=
    ((Nat.div_lt_iff_lt_mul hgrid).mp (Nat.lt_succ_self _)).le
  refine ⟨b.den * (10 ^ (-k).toNat : ℕ), mul_pos (Nat.cast_pos.mpr h.den)
    (Nat.cast_pos.mpr (by positivity)), ?_, ?_⟩
  · rw [down, Nat.cast_sub hlower, hexact, Nat.cast_mul (b.floor k), hstep,
      abs_of_nonpos (by linarith)]
    ring
  · rw [up, Nat.cast_sub hupper, hexact, Nat.cast_mul (b.floor k + 1), hstep,
      abs_of_nonneg (by linarith)]
    ring

/-- **The search on one grid finds its best point, if any point of it rounds to the number.** -/
theorem neighbour?_spec (k : ℤ) :
    (∀ d, b.neighbour? k = some d → d.exponent = k ∧ b.Neighbour k d.digits) ∧
    (b.neighbour? k = none → ∀ j : ℕ, ¬ b.Rounds (j * 10 ^ k)) := by
  obtain ⟨c, hc, hdown, hup⟩ := h.distances k
  have hless : b.down k < b.up k ↔
      |b.floor k * 10 ^ k - b.exact| < |(b.floor k + 1 : ℕ) * 10 ^ k - b.exact| := by
    rw [← Nat.cast_lt (α := ℚ), hdown, hup]
    exact mul_lt_mul_iff_left₀ hc
  have hequal : b.down k = b.up k ↔
      |b.floor k * 10 ^ k - b.exact| = |(b.floor k + 1 : ℕ) * 10 ^ k - b.exact| := by
    rw [← Nat.cast_inj (R := ℚ), hdown, hup]
    exact mul_left_inj' hc.ne'
  have hbelow := h.covers_iff (b.floor k) k
  have habove := h.covers_iff (b.floor k + 1) k
  rw [neighbour?_eq]
  cases hlow : b.covers (b.floor k) k <;> cases hhigh : b.covers (b.floor k + 1) k
  · -- Neither rounds to the number, and then no other point does.
    refine ⟨nofun, fun _ j hj => ?_⟩
    obtain ⟨e, rfl | rfl, hr, -⟩ := h.exists_nearer k j
    · simp [hbelow.mpr (hr hj)] at hlow
    · simp [habove.mpr (hr hj)] at hhigh
  · refine ⟨fun d hd => ?_, nofun⟩
    obtain rfl := Option.some.inj hd
    exact ⟨rfl, h.neighbour_of (.inr ⟨rfl, rfl⟩) (habove.mp hhigh) fun hr => by
      simp [hbelow.mpr hr] at hlow⟩
  · refine ⟨fun d hd => ?_, nofun⟩
    obtain rfl := Option.some.inj hd
    exact ⟨rfl, h.neighbour_of (.inl ⟨rfl, rfl⟩) (hbelow.mp hlow) fun hr => by
      simp [habove.mpr hr] at hhigh⟩
  · -- Both do, and the better one is taken.
    dsimp only
    split
    · rename_i hbetter
      rw [hless, hequal] at hbetter
      refine ⟨fun d hd => ?_, nofun⟩
      obtain rfl := Option.some.inj hd
      exact ⟨rfl, h.neighbour_of (.inl ⟨rfl, rfl⟩) (hbelow.mp hlow) fun _ => hbetter⟩
    · rename_i hworse
      rw [hless, hequal] at hworse
      refine ⟨fun d hd => ?_, nofun⟩
      obtain rfl := Option.some.inj hd
      refine ⟨rfl, h.neighbour_of (.inr ⟨rfl, rfl⟩) (habove.mp hhigh) fun _ => ?_⟩
      obtain ⟨hnlt, hodd⟩ := not_or.mp hworse
      rcases (not_lt.mp hnlt).lt_or_eq with hlt | heq
      · exact .inl hlt
      · have hne : ¬ b.floor k % 2 = 0 := fun heven => hodd ⟨heq.symm, heven⟩
        have heven : (b.floor k + 1) % 2 = 0 := by omega
        exact .inr ⟨heq, heven⟩

/-- Decimals of `n + 1` digits that round to the number lead to a point of the grid for so many
    digits that does, and is no farther off. -/
theorem exists_on_grid {d : Digits} (hd : b.Rounds d.value) (hcount : d.count ≤ n + 1) :
    ∃ j : ℕ, b.Rounds (j * 10 ^ (b.magnitude - n)) ∧ (d.value = j * 10 ^ (b.magnitude - n) ∨
      |j * 10 ^ (b.magnitude - n) - b.exact| < |d.value - b.exact|) := by
  have hten : (10 : ℚ) ≠ 0 := by norm_num
  rcases le_or_gt (b.magnitude - n) d.exponent with hle | hlt
  · -- The decimal lies on the grid.
    obtain ⟨t, ht⟩ := Int.le.dest hle
    have hvalue : d.value = (d.digits * 10 ^ t : ℕ) * 10 ^ (b.magnitude - n) := by
      unfold Digits.value
      rw [← ht, zpow_add₀ hten, zpow_natCast]
      push_cast
      ring
    exact ⟨d.digits * 10 ^ t, hvalue ▸ hd, .inl hvalue⟩
  · -- The decimal is less than the least number of this magnitude.
    have hleast : ((10 ^ n : ℕ) * 10 ^ (b.magnitude - n) : ℚ) = 10 ^ b.magnitude := by
      rw [Nat.cast_pow, Nat.cast_ofNat, ← zpow_natCast, ← zpow_add₀ hten, add_sub_cancel]
    have hdigits : (d.digits : ℚ) < 10 ^ (n + 1 : ℤ) := by
      exact_mod_cast (Digits.count_le_iff (Nat.succ_pos n)).mp hcount
    have hbelow : d.value < 10 ^ b.magnitude :=
      calc d.value < 10 ^ (n + 1 : ℤ) * 10 ^ d.exponent :=
            mul_lt_mul_of_pos_right hdigits (zpow_ten_pos _)
        _ = 10 ^ (n + 1 + d.exponent) := (zpow_add₀ hten _ _).symm
        _ ≤ 10 ^ b.magnitude := zpow_le_zpow_right₀ (by norm_num) (by omega)
    have hexact := h.magnitude_spec.1
    refine ⟨10 ^ n, ?_, .inr ?_⟩
    · rw [hleast]
      exact hd.between h.rounds_exact hbelow.le hexact
    · rw [hleast, abs_of_nonpos (by linarith), abs_of_nonpos (by linarith)]
      linarith

/-- A grid without a point that rounds to the number has steps at least as wide as the interval. -/
theorem width_le {k : ℤ} (hno : ∀ j : ℕ, ¬ b.Rounds (j * 10 ^ k)) :
    (b.high - b.low) * b.scale ≤ 10 ^ k := by
  obtain ⟨hfloor, hceil⟩ := h.floor_spec k
  have hlow := h.low_lt_exact
  have hhigh := h.exact_lt_high
  have hleft : b.floor k * 10 ^ k ≤ b.low * b.scale :=
    not_lt.mp fun hlt => hno _ (Rounds.of_inside hlt (by linarith))
  have hright : b.high * b.scale ≤ (b.floor k + 1 : ℕ) * 10 ^ k :=
    not_lt.mp fun hlt => hno _ (Rounds.of_inside (by linarith) hlt)
  push_cast at hright
  linarith

/-- The grid for seventeen digits is finer than the interval is wide. -/
theorem exists_on_finest : ∃ j : ℕ, b.Rounds (j * 10 ^ (b.magnitude - (16 : ℕ))) := by
  by_contra hno
  have hstep := h.width_le (not_exists.mp hno)
  have hsplit : (10 : ℚ) ^ b.magnitude = 10 ^ (b.magnitude - (16 : ℕ)) * 10 ^ 16 := by
    rw [← zpow_natCast, ← zpow_add₀ (by norm_num), sub_add_cancel]
  have hle : 10 ^ 16 * (b.high - b.low : ℚ) * b.scale ≤ b.value * b.scale := by
    have hexact := h.magnitude_spec.1
    unfold exact at hexact
    linarith
  have hwide : (b.value : ℚ) < 10 ^ 16 * (b.high - b.low) := by
    have := (h.below.trans h.above).le
    rw [← Nat.cast_sub this]
    exact_mod_cast h.wide
  exact absurd (le_of_mul_le_mul_right hle h.scale_pos) (not_le.mpr hwide)

end Sound

/-! ## The search over all grids -/

/-- The first hit in a range comes after failures only. -/
theorem of_findSome?_range {α : Type} {f : ℕ → Option α} {m : ℕ} {a : α}
    (h : (List.range m).findSome? f = some a) : ∃ n < m, f n = some a ∧ ∀ i < n, f i = none := by
  induction m with
  | zero => cases h
  | succ m ih =>
    rw [List.range_succ, List.findSome?_append, Option.or_eq_some_iff] at h
    rcases h with h | ⟨hnone, hlast⟩
    · obtain ⟨n, hn, hfirst⟩ := ih h
      exact ⟨n, Nat.lt_succ_of_lt hn, hfirst⟩
    · rw [List.findSome?_singleton] at hlast
      exact ⟨m, Nat.lt_succ_self m, hlast, fun i hi =>
        List.findSome?_eq_none_iff.mp hnone i (List.mem_range.mpr hi)⟩

end Binary

/-! ## Zeros at the end -/

namespace Digits

/-- Dropped zeros are made up for by the exponent. -/
theorem strip_eq (fuel : ℕ) (d : Digits) : ∃ t : ℕ, d.digits = (d.strip fuel).digits * 10 ^ t ∧
    (d.strip fuel).exponent = d.exponent + t := by
  induction fuel generalizing d with
  | zero => exact ⟨0, by simp [strip], by simp [strip]⟩
  | succ fuel ih =>
    unfold strip
    split
    · rename_i hzero
      obtain ⟨t, hdigits, hexponent⟩ := ih ⟨d.digits / 10, d.exponent + 1⟩
      refine ⟨t + 1, ?_, ?_⟩
      · rw [pow_succ, ← mul_assoc, ← hdigits]
        exact (Nat.div_mul_cancel (Nat.dvd_of_mod_eq_zero hzero.2)).symm
      · rw [hexponent]
        push_cast
        ring
    · exact ⟨0, by simp, by simp⟩

/-- To strip zeros does not change the value. -/
theorem strip_value (fuel : ℕ) (d : Digits) : (d.strip fuel).value = d.value := by
  obtain ⟨t, hdigits, hexponent⟩ := strip_eq fuel d
  unfold value
  rw [hexponent, zpow_add₀ (by norm_num), zpow_natCast, hdigits]
  push_cast
  ring

/-- All of them are dropped, if there is fuel for so many. -/
theorem strip_stripped {fuel : ℕ} {d : Digits} (hpos : 0 < d.digits)
    (hfuel : d.digits < 10 ^ fuel) : (d.strip fuel).digits % 10 ≠ 0 := by
  induction fuel generalizing d with
  | zero =>
    rw [pow_zero] at hfuel
    omega
  | succ fuel ih =>
    unfold strip
    split
    · rename_i hzero
      rw [pow_succ] at hfuel
      exact ih (d := ⟨d.digits / 10, d.exponent + 1⟩) (Nat.div_pos (by omega) (by decide))
        (Nat.div_lt_of_lt_mul (by omega))
    · omega

/-- Digits that are no more than a power of ten have no more digits than it has zeros, without their
    own zeros at the end. -/
theorem count_strip_le {fuel : ℕ} (hd : d.digits ≤ 10 ^ (n + 1))
    (hstripped : (d.strip fuel).digits % 10 ≠ 0) : (d.strip fuel).count ≤ n + 1 := by
  rw [count_le_iff (Nat.succ_pos n)]
  obtain ⟨t, hdigits, -⟩ := strip_eq fuel d
  rw [hdigits] at hd
  rcases Nat.eq_zero_or_pos t with rfl | ht
  · rw [pow_zero, mul_one] at hd
    refine lt_of_le_of_ne hd fun he => hstripped ?_
    rw [he, pow_succ, Nat.mul_mod_left]
  · obtain ⟨s, rfl⟩ := Nat.exists_eq_succ_of_ne_zero ht.ne'
    have hle : (d.strip fuel).digits ≤ 10 ^ n := by
      have hone : 1 ≤ 10 ^ s := Nat.one_le_pow _ _ (by decide)
      rw [Nat.pow_succ, Nat.pow_succ, ← mul_assoc] at hd
      exact (Nat.le_mul_of_pos_right _ hone).trans (Nat.le_of_mul_le_mul_right hd (by decide))
    exact hle.trans_lt (Nat.pow_lt_pow_right (by decide) (Nat.lt_succ_self n))

end Digits

/-! ## The shortest digits -/

namespace Binary.Sound

variable {b : Binary} (h : b.Sound)
include h

/-- The search stops at the first grid on which something rounds to the number. -/
theorem exists_first : ∃ n : ℕ, n < 17 ∧ ∃ d : Digits, b.shortest = d.strip 20 ∧
    d.exponent = b.magnitude - n ∧ b.Neighbour (b.magnitude - n) d.digits ∧
    ∀ i : ℕ, i < n → ∀ j : ℕ, ¬ b.Rounds (j * 10 ^ (b.magnitude - i)) := by
  obtain ⟨d, hd⟩ : ∃ d, ((List.range 17).findSome? fun n : ℕ => b.neighbour? (b.magnitude - n))
      = some d := by
    by_contra hno
    have hnone := Option.eq_none_iff_forall_ne_some.mpr (not_exists.mp hno)
    obtain ⟨j, hj⟩ := h.exists_on_finest
    exact (h.neighbour?_spec _).2 (List.findSome?_eq_none_iff.mp hnone 16 (by decide)) j hj
  obtain ⟨n, hn, hfound, hcoarser⟩ := of_findSome?_range hd
  obtain ⟨hexponent, hbest⟩ := (h.neighbour?_spec _).1 d hfound
  refine ⟨n, hn, d, ?_, hexponent, hbest, fun i hi => (h.neighbour?_spec _).2 (hcoarser i hi)⟩
  show Digits.strip 20 (Option.getD _ _) = _
  rw [hd]
  rfl

/-- The best point of a grid has at most as many digits as the grid is for, or is the next power
    of ten. -/
theorem digits_le {d : ℕ} (hd : b.Neighbour (b.magnitude - n) d) : 0 < d ∧ d ≤ 10 ^ (n + 1) := by
  constructor
  · refine Nat.pos_of_ne_zero fun hzero => ?_
    have hpos := h.pos_of_rounds hd.rounds
    rw [hzero, Nat.cast_zero, zero_mul] at hpos
    exact lt_irrefl _ hpos
  · have hfloor : b.floor (b.magnitude - n) < 10 ^ (n + 1) := by
      have hlt := (h.floor_spec (b.magnitude - n)).1.trans_lt h.magnitude_spec.2
      have hsplit : (10 : ℚ) ^ (b.magnitude + 1)
          = (10 ^ (n + 1) : ℕ) * 10 ^ (b.magnitude - n) := by
        rw [Nat.cast_pow, Nat.cast_ofNat, ← zpow_natCast, ← zpow_add₀ (by norm_num)]
        congr 1
        push_cast
        ring
      rw [hsplit] at hlt
      exact_mod_cast lt_of_mul_lt_mul_right hlt (zpow_ten_pos _).le
    rcases hd.near with rfl | rfl <;> omega

/-- **The shortest digits are the shortest, and of these the nearest.** -/
theorem shortest : Shortest b.Rounds b.exact b.shortest := by
  obtain ⟨n, hn, d, hfound, hexponent, hbest, hcoarser⟩ := h.exists_first
  obtain ⟨hpos, hle⟩ := h.digits_le hbest
  have hfuel : d.digits < 10 ^ 20 :=
    hle.trans_lt (Nat.pow_lt_pow_right (by decide) (by omega))
  have hstripped := Digits.strip_stripped hpos hfuel
  have hcount : (d.strip 20).count ≤ n + 1 := Digits.count_strip_le hle hstripped
  have hvalue : (d.strip 20).value = d.digits * 10 ^ (b.magnitude - n) := by
    rw [Digits.strip_value]
    unfold Digits.value
    rw [hexponent]
  rw [hfound]
  refine ⟨hvalue ▸ hbest.rounds, hstripped, fun d' hd' => ?_, fun d' hd' hsame => ?_,
    fun d' hd' hsame htie hne => ?_⟩
  · -- With fewer digits there would be something on a coarser grid.
    by_contra hless
    have hd'pos := d'.count_pos
    obtain ⟨m, rfl⟩ : ∃ m, n = m + 1 := ⟨n - 1, by omega⟩
    obtain ⟨j, hj, -⟩ := h.exists_on_grid (n := m) hd' (by omega)
    exact hcoarser m (Nat.lt_succ_self m) j hj
  · obtain ⟨j, hj, hor⟩ := h.exists_on_grid hd' (hsame.trans_le hcount)
    rw [hvalue]
    rcases hor with he | hlt
    · exact he ▸ hbest.nearest j hj
    · exact (hbest.nearest j hj).trans hlt.le
  · obtain ⟨j, hj, hor⟩ := h.exists_on_grid hd' (hsame.trans_le hcount)
    rw [hvalue] at htie hne ⊢
    rcases hor with he | hlt
    · rw [he] at htie hne ⊢
      obtain ⟨heven, hstep⟩ := hbest.even j hj htie fun hjd => hne (by rw [hjd])
      refine ⟨d.digits / 2, ?_⟩
      rw [hstep]
      have hhalf : (d.digits : ℚ) = 2 * (d.digits / 2 : ℕ) := by
        exact_mod_cast (Nat.mul_div_cancel' (Nat.dvd_of_mod_eq_zero heven)).symm
      rw [← hhalf]
    · exact absurd (htie ▸ hlt) (not_lt.mpr (hbest.nearest j hj))

end Binary.Sound

end CircuitWitness.Decimal
