import Mathlib.Tactic.LinearCombination
import CircuitWitness.Proofs.Decimal.Shortest
/-
  The digits of a binary64 number.

  The bits below the sign count the finite numbers from zero upwards: the number with bits `n + 1`
  comes next after the number with bits `n`, one unit of the last place above it
  (`Binary64.value_succ`).  So a real rounds to the number with bits `n` if it lies between the
  midpoints to the numbers with bits `n - 1` and `n + 1`, and a midpoint rounds to the even one of
  its two numbers (`Binary64.RoundsTo`).  This is the interval of the search, also where the step
  below a number is finer than the step above it.
-/

namespace CircuitWitness.Decimal

namespace Binary64

/-- The significand of the number with given bits; the leading one is implied, except in the
    smallest numbers. -/
def significand (n : ℕ) : ℕ := if n / 2 ^ 52 = 0 then n % 2 ^ 52 else 2 ^ 52 + n % 2 ^ 52

/-- The exponent of its last place. -/
def exponent (n : ℕ) : ℤ := max (n / 2 ^ 52 : ℕ) 1 - 1075

/-- The number with given bits, the sign apart. -/
def value (n : ℕ) : ℚ := significand n * 2 ^ exponent n

/-- A real rounds to the number with bits `n`: to the nearest, and to the even one of two. -/
def RoundsTo (n : ℕ) (y : ℚ) : Prop :=
  if n % 2 = 0 then (value (n - 1) + value n) / 2 ≤ y ∧ y ≤ (value n + value (n + 1)) / 2
  else (value (n - 1) + value n) / 2 < y ∧ y < (value n + value (n + 1)) / 2

variable {n : ℕ}

/-- The parity of a significand is that of its bits, since the implied one is even. -/
theorem significand_mod_two (n : ℕ) : significand n % 2 = n % 2 := by
  unfold significand
  split <;> omega

theorem significand_lt (n : ℕ) : significand n < 2 ^ 53 := by
  unfold significand
  split <;> omega

theorem significand_pos (hn : 0 < n) : 0 < significand n := by
  unfold significand
  split <;> omega

/-- The next number is one unit of the last place above. -/
theorem value_succ (n : ℕ) : value (n + 1) = value n + 2 ^ exponent n := by
  have htwo : (2 : ℚ) ≠ 0 := by norm_num
  by_cases hlast : n % 2 ^ 52 = 2 ^ 52 - 1
  · have hdiv : (n + 1) / 2 ^ 52 = n / 2 ^ 52 + 1 := by omega
    have hmod : (n + 1) % 2 ^ 52 = 0 := by omega
    have hnext : significand (n + 1) = 2 ^ 52 := by
      unfold significand
      rw [hdiv, hmod, if_neg (Nat.succ_ne_zero _), add_zero]
    by_cases hsmall : n / 2 ^ 52 = 0
    · -- The least number with an implied one follows the greatest without.
      have hexp : exponent (n + 1) = exponent n := by
        unfold exponent
        rw [hdiv, hsmall]
        rfl
      have hsig : significand n + 1 = 2 ^ 52 := by
        unfold significand
        rw [if_pos hsmall]
        omega
      unfold value
      rw [hexp, hnext, ← hsig]
      push_cast
      ring
    · -- The significand is full, so the exponent goes up.
      have hexp : exponent (n + 1) = exponent n + 1 := by
        unfold exponent
        rw [hdiv]
        omega
      have hsig : significand n + 1 = 2 ^ 52 * 2 := by
        unfold significand
        rw [if_neg hsmall]
        omega
      have hcast : (significand n + 1 : ℚ) = 2 ^ 52 * 2 := by exact_mod_cast hsig
      unfold value
      rw [hexp, hnext, zpow_add₀ htwo, zpow_one]
      push_cast
      linear_combination -(2 : ℚ) ^ exponent n * hcast
  · have hdiv : (n + 1) / 2 ^ 52 = n / 2 ^ 52 := by omega
    have hmod : (n + 1) % 2 ^ 52 = n % 2 ^ 52 + 1 := by omega
    have hexp : exponent (n + 1) = exponent n := by
      unfold exponent
      rw [hdiv]
    have hsig : significand (n + 1) = significand n + 1 := by
      unfold significand
      rw [hdiv, hmod]
      split <;> rfl
    unfold value
    rw [hexp, hsig]
    push_cast
    ring

/-- Whether the step below a number is finer than the step above it. -/
def Fine (n : ℕ) : Prop := n % 2 ^ 52 = 0 ∧ 1 < n / 2 ^ 52

instance (n : ℕ) : Decidable (Fine n) := inferInstanceAs (Decidable (_ ∧ _))

/-- The number before is one unit of the last place below, or half of it. -/
theorem value_pred (hn : 0 < n) :
    value (n - 1) = value n - (if Fine n then 2 ^ (exponent n - 1) else 2 ^ exponent n) := by
  have hsucc := value_succ (n - 1)
  rw [Nat.sub_add_cancel hn] at hsucc
  have hexp : exponent (n - 1) = if Fine n then exponent n - 1 else exponent n := by
    by_cases hfine : Fine n
    · rw [if_pos hfine]
      unfold Fine at hfine
      unfold exponent
      omega
    · rw [if_neg hfine]
      unfold Fine at hfine
      unfold exponent
      omega
  rw [hsucc, hexp, apply_ite (fun e : ℤ => (2 : ℚ) ^ e)]
  ring

/-! ## The search on the bits -/

/-- The number with given bits, as the search takes it. -/
def binary (n : ℕ) : Binary := .ofParts (significand n) (exponent n) (decide (Fine n))

/-- The search measures in quarters of the last place. -/
theorem scale_binary (n : ℕ) : (binary n).scale = 2 ^ (exponent n - 2) := by
  have hnum : (binary n).num = 2 ^ (exponent n - 2).toNat := Nat.one_shiftLeft _
  have hden : (binary n).den = 2 ^ (-(exponent n - 2)).toNat := by
    rw [neg_sub]
    exact Nat.one_shiftLeft _
  unfold Binary.scale
  rw [hnum, hden]
  exact (zpow_eq_div 2 _).symm

/-- On this scale the number is four significands. -/
theorem exact_binary (n : ℕ) : (binary n).exact = value n := by
  have hvalue : (binary n).value = 4 * significand n := rfl
  unfold Binary.exact value
  rw [scale_binary, hvalue, zpow_sub₀ (by norm_num)]
  push_cast
  ring

/-- The lower end is one quarter away where the step below is finer, and two quarters elsewhere. -/
theorem low_binary (n : ℕ) :
    (binary n).low = if Fine n then 4 * significand n - 1 else 4 * significand n - 2 := by
  show (if decide (Fine n) = true then _ else _) = _
  by_cases hfine : Fine n
  · rw [if_pos hfine, if_pos (decide_eq_true hfine)]
  · rw [if_neg hfine, if_neg (by simpa using hfine)]

/-- Where the step below is finer, the significand is the least with an implied one. -/
theorem significand_of_fine (hfine : Fine n) : significand n = 2 ^ 52 := by
  obtain ⟨hzero, hone⟩ := hfine
  unfold significand
  rw [if_neg (by omega), hzero, add_zero]

/-- Room for the smallest numbers in the power of ten that the search scales by. -/
theorem two_pow_le_ten_pow {m k : ℕ} (h : m ≤ 3 * k) : 2 ^ m ≤ 10 ^ k :=
  calc 2 ^ m ≤ 2 ^ (3 * k) := Nat.pow_le_pow_right (by decide) h
    _ = 8 ^ k := Nat.pow_mul 2 3 k
    _ ≤ 10 ^ k := Nat.pow_le_pow_left (by decide) k

/-- The search may be used on every number but zero. -/
theorem sound_binary (hn : 0 < n) : (binary n).Sound := by
  have hpos := significand_pos hn
  have hsig := significand_lt n
  have hvalue : (binary n).value = 4 * significand n := rfl
  have hhigh : (binary n).high = 4 * significand n + 2 := rfl
  have hlow := low_binary n
  have hnum : 0 < (binary n).num := by
    show 0 < 1 <<< _
    rw [Nat.one_shiftLeft]
    exact Nat.two_pow_pos _
  have hden : (binary n).den = 2 ^ (2 - exponent n).toNat := Nat.one_shiftLeft _
  refine ⟨hnum, hden ▸ Nat.two_pow_pos _, ?_, ?_, ?_, ?_, ?_⟩
  · rw [hlow]
    split <;> omega
  · rw [hlow, hvalue]
    split <;> omega
  · rw [hhigh, hvalue]
    omega
  · rw [hhigh, hlow, hvalue]
    split
    · rename_i hfine
      rw [significand_of_fine hfine]
      norm_num
    · omega
  · -- No last place is smaller than `2 ^ -1074`.
    have hexp : (2 - exponent n).toNat ≤ 3 * 400 := by
      unfold exponent
      omega
    rw [hden]
    exact (two_pow_le_ten_pow hexp).trans
      (Nat.le_mul_of_pos_left _ (Nat.mul_pos (by omega) hnum))

/-- The interval of the search is what rounds to the number. -/
theorem rounds_binary (hn : 0 < n) (y : ℚ) : (binary n).Rounds y ↔ RoundsTo n y := by
  have htwo : (2 : ℚ) ≠ 0 := by norm_num
  have hpos := significand_pos hn
  have hclosed : (binary n).closed = true ↔ n % 2 = 0 := by
    rw [← significand_mod_two]
    exact beq_iff_eq
  have hscale : (binary n).scale = 2 ^ exponent n / 4 := by
    rw [scale_binary, zpow_sub₀ htwo]
    norm_num
  have hlow : ((binary n).low : ℚ) * (binary n).scale = (value (n - 1) + value n) / 2 := by
    rw [low_binary, hscale, value_pred hn]
    unfold value
    split
    · rw [Nat.cast_sub (by omega), zpow_sub_one₀ htwo]
      push_cast
      ring
    · rw [Nat.cast_sub (by omega)]
      push_cast
      ring
  have hhigh : ((binary n).high : ℚ) * (binary n).scale = (value n + value (n + 1)) / 2 := by
    have hdef : (binary n).high = 4 * significand n + 2 := rfl
    rw [hdef, hscale, value_succ]
    unfold value
    push_cast
    ring
  unfold Binary.Rounds RoundsTo
  rw [hlow, hhigh]
  simp only [hclosed]

end Binary64

/-- The bits of the magnitude of a number. -/
def magnitudeBits (x : Float) : ℕ := x.toBits.toNat % 2 ^ 63

/-- The fields of the bits, without the sign. -/
theorem biased_eq (x : Float) :
    (x.toBits.toNat >>> 52) % (1 <<< 11) = magnitudeBits x / 2 ^ 52 := by
  unfold magnitudeBits
  rw [Nat.shiftRight_eq_div_pow, Nat.one_shiftLeft]
  omega

theorem fraction_eq (x : Float) : x.toBits.toNat % (1 <<< 52) = magnitudeBits x % 2 ^ 52 := by
  unfold magnitudeBits
  rw [Nat.one_shiftLeft]
  omega

/-- Zero has no digits. -/
theorem shortest_of_zero {x : Float} (h : magnitudeBits x = 0) : shortest x = ⟨0, 0⟩ := by
  unfold shortest
  dsimp only
  rw [biased_eq, fraction_eq, h]
  rfl

/-- The search is on the bits of the magnitude. -/
theorem shortest_eq {x : Float} (h : 0 < magnitudeBits x) :
    shortest x = (Binary64.binary (magnitudeBits x)).shortest := by
  unfold shortest
  dsimp only
  rw [biased_eq, fraction_eq]
  generalize magnitudeBits x = n at h
  unfold Binary64.binary Binary64.significand Binary64.exponent
  by_cases hsmall : n / 2 ^ 52 = 0
  · have hcoarse : ¬ Binary64.Fine n := fun hfine => by
      have := hfine.2
      omega
    rw [if_pos hsmall, if_pos hsmall, if_neg (by omega), hsmall, decide_eq_false hcoarse]
    rfl
  · have hexp : max (n / 2 ^ 52) 1 = n / 2 ^ 52 := by omega
    have hfine : (n % 2 ^ 52 == 0 && decide (1 < n / 2 ^ 52)) = decide (Binary64.Fine n) := by
      rw [Bool.eq_iff_iff, Bool.and_eq_true, beq_iff_eq, decide_eq_true_iff, decide_eq_true_iff]
      rfl
    rw [if_neg hsmall, if_neg hsmall, hexp, hfine, Nat.one_shiftLeft]

/-- **The digits of a finite number that is not zero are the shortest that round to it.** -/
theorem shortest_spec {x : Float} (h : 0 < magnitudeBits x) :
    Shortest (Binary64.RoundsTo (magnitudeBits x)) (Binary64.value (magnitudeBits x))
      (shortest x) := by
  have hrounds : (Binary64.binary (magnitudeBits x)).Rounds
      = Binary64.RoundsTo (magnitudeBits x) :=
    funext fun y => propext (Binary64.rounds_binary h y)
  rw [shortest_eq h, ← Binary64.exact_binary, ← hrounds]
  exact (Binary64.sound_binary h).shortest

end CircuitWitness.Decimal
