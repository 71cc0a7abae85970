import Mathlib.NumberTheory.LucasPrimality
import Mathlib.Tactic.NormNum.Prime
import Mathlib.Tactic.ReduceModChar
import CircuitWitness.Scalar.Basic
/-
  The order of the field is a prime.

  Lucas's test shows a number `p` prime: some residue has order `p - 1`.  It takes the prime
  factors of `p - 1`, and the large ones among them are shown prime by the same test, down to
  numbers small enough for trial division.
-/

namespace CircuitWitness

/-- A number is prime if some residue has the order that it has for a prime.  It is enough to look
    at the primes that make up `p - 1`, and to know that no power above the `n`-th is needed. -/
theorem prime_of_order {p : Nat} (a : ZMod p) (n : Nat) (factors : List Nat)
    (hprime : ∀ q ∈ factors, q.Prime) (hdvd : p - 1 ∣ factors.prod ^ n)
    (horder : a ^ (p - 1) = 1 ∧ ∀ q ∈ factors, a ^ ((p - 1) / q) ≠ 1) : p.Prime := by
  refine lucas_primality p a horder.1 fun q hq hqp => ?_
  -- A prime that divides a product of primes is one of them.
  have hprod : q ∣ factors.prod := hq.dvd_of_dvd_pow (hqp.trans hdvd)
  obtain ⟨f, hf, hqf⟩ := (Prime.dvd_prod_iff hq.prime).mp hprod
  obtain rfl : q = f := (Nat.prime_dvd_prime_iff_eq hq (hprime f hf)).mp hqf
  exact horder.2 q hf

/-! ## The factors that are too large for trial division -/

/-- The first of a chain: the factors of its predecessor are small enough for trial division. -/
theorem prime_639533339 : Nat.Prime 639533339 := by
  refine prime_of_order 2 1 [2, 229, 853, 1637] ?_ (by norm_num) ?_
  · simp
    norm_num
  · simp only [List.forall_mem_cons]
    norm_num only
    reduce_mod_char
    decide +kernel

theorem prime_65865678001877903 : Nat.Prime 65865678001877903 := by
  refine prime_of_order 5 1 [2, 83, 379, 1637, 639533339] ?_ (by norm_num) ?_
  · simp [prime_639533339]
    norm_num
  · simp only [List.forall_mem_cons]
    norm_num only
    reduce_mod_char
    decide +kernel

/-- The end of the chain, which is the largest factor of the predecessor of the order. -/
theorem prime_13818364434197438864469338081 : Nat.Prime 13818364434197438864469338081 := by
  refine prime_of_order 3 5 [2, 5, 823, 1593227, 65865678001877903] ?_ (by norm_num) ?_
  · simp [prime_65865678001877903]
    norm_num
  · simp only [List.forall_mem_cons]
    norm_num only
    reduce_mod_char
    decide +kernel

theorem prime_12048837557 : Nat.Prime 12048837557 := by
  refine prime_of_order 2 2 [2, 7, 661, 93001] ?_ (by norm_num) ?_
  · simp
    norm_num
  · simp only [List.forall_mem_cons]
    norm_num only
    reduce_mod_char
    decide +kernel

/-- The middle of the chain for the second largest factor. -/
theorem prime_5156902474397 : Nat.Prime 5156902474397 := by
  refine prime_of_order 2 2 [2, 107, 12048837557] ?_ (by norm_num) ?_
  · simp [prime_12048837557]
    norm_num
  · simp only [List.forall_mem_cons]
    norm_num only
    reduce_mod_char
    decide +kernel

theorem prime_1670836401704629 : Nat.Prime 1670836401704629 := by
  refine prime_of_order 2 4 [2, 3, 5156902474397] ?_ (by norm_num) ?_
  · simp [prime_5156902474397]
    norm_num
  · simp only [List.forall_mem_cons]
    norm_num only
    reduce_mod_char
    decide +kernel

theorem prime_405928799 : Nat.Prime 405928799 := by
  refine prime_of_order 22 1 [2, 11, 3691, 4999] ?_ (by norm_num) ?_
  · simp
    norm_num
  · simp only [List.forall_mem_cons]
    norm_num only
    reduce_mod_char
    decide +kernel

/-- **The order of the field is a prime.** -/
theorem Scalar.prime_modulus : Nat.Prime Scalar.modulus := by
  unfold Scalar.modulus
  refine prime_of_order 5 28 [2, 3, 13, 29, 983, 11003, 237073, 405928799, 1670836401704629,
    13818364434197438864469338081] ?_ (by norm_num) ?_
  · simp [prime_405928799, prime_1670836401704629, prime_13818364434197438864469338081]
    norm_num
  · simp only [List.forall_mem_cons]
    norm_num only
    reduce_mod_char
    decide +kernel

instance : Fact (Nat.Prime Scalar.modulus) := ⟨Scalar.prime_modulus⟩

end CircuitWitness
