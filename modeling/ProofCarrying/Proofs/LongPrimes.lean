import Mathlib.NumberTheory.LucasPrimality
import ProofCarrying.Text.Numeral

/-! A prime number that is too long to be written. Its predecessor is a power of 150 and the order
of a residue, which one chain of remainders shows. -/

namespace ProofCarrying

def longNumber (n : Nat) : Nat :=
  150 ^ (n + 1) + 1

theorem one_lt_longNumber (n : Nat) : 1 < longNumber n :=
  Nat.succ_lt_succ (Nat.pow_pos (by decide))

theorem longNumber_sub_one (n : Nat) : longNumber n - 1 = 150 ^ n * 150 := by
  rw [longNumber, Nat.add_sub_cancel, pow_succ]

/-- The remainder of the 150th power, one prime factor of the exponent at a time. -/
def raise (m x : Nat) : Nat :=
  (((x ^ 2 % m) ^ 3 % m) ^ 5 % m) ^ 5 % m

/-- Raises a number so many times. A remainder is computed before it is raised again. -/
def raised (m : Nat) : Nat → Nat → Nat
  | 0, x => x
  | n + 1, x =>
    match raise m x with
    | 0 => 0
    | y + 1 => raised m n (y + 1)

/-- Whether 150 is the least exponent for which a power has the remainder one. -/
def hasOrder (m : Nat) : Nat → Bool
  | 0 => false
  | y + 1 => (y + 1) ^ 150 % m == 1 && [75, 50, 30].all fun k => (y + 1) ^ k % m != 1

/-- Whether the number's predecessor is the order of `a`. -/
def hasFullOrder (n a : Nat) : Bool :=
  hasOrder (longNumber n) (raised (longNumber n) n a)

theorem cast_raise (m x : Nat) : (raise m x : ZMod m) = (x : ZMod m) ^ 150 := by
  simp only [raise, ZMod.natCast_mod, Nat.cast_pow]
  ring

theorem cast_raised (m n x : Nat) : (raised m n x : ZMod m) = (x : ZMod m) ^ 150 ^ n := by
  induction n generalizing x with
  | zero => simp [raised]
  | succ n ih =>
    have hx := cast_raise m x
    rw [raised, pow_succ', pow_mul, ← hx]
    cases raise m x with
    | zero => simp
    | succ y => exact ih (y + 1)

theorem cast_pow_eq_one_iff {m : Nat} (hm : 1 < m) (y k : Nat) :
    (y : ZMod m) ^ k = 1 ↔ y ^ k % m = 1 := by
  rw [← Nat.cast_pow, ← Nat.cast_one, ZMod.natCast_eq_natCast_iff', Nat.mod_eq_of_lt hm]

theorem hasOrder_iff {m y : Nat} : hasOrder m y = true ↔
    y ≠ 0 ∧ y ^ 150 % m = 1 ∧ y ^ 75 % m ≠ 1 ∧ y ^ 50 % m ≠ 1 ∧ y ^ 30 % m ≠ 1 := by
  cases y with
  | zero => simp [hasOrder]
  | succ y => simp [hasOrder]

theorem eq_of_prime_dvd {q : Nat} (hq : q.Prime) (h : q ∣ 150) : q = 2 ∨ q = 3 ∨ q = 5 := by
  rw [show 150 = 2 * (3 * 5 ^ 2) by rfl, hq.dvd_mul, hq.dvd_mul] at h
  rcases h with h | h | h
  · exact .inl ((Nat.prime_dvd_prime_iff_eq hq Nat.prime_two).mp h)
  · exact .inr (.inl ((Nat.prime_dvd_prime_iff_eq hq Nat.prime_three).mp h))
  · exact .inr (.inr ((Nat.prime_dvd_prime_iff_eq hq Nat.prime_five).mp (hq.dvd_of_dvd_pow h)))

theorem prime_of_hasFullOrder {n a : Nat} (h : hasFullOrder n a = true) :
    (longNumber n).Prime := by
  obtain ⟨-, hone, htwo, hthree, hfive⟩ := hasOrder_iff.mp h
  have hpow : ∀ k, (a : ZMod (longNumber n)) ^ (150 ^ n * k) = 1 ↔
      raised (longNumber n) n a ^ k % longNumber n = 1 := by
    intro k
    rw [pow_mul, ← cast_raised, cast_pow_eq_one_iff (one_lt_longNumber n)]
  refine lucas_primality _ (a : ZMod (longNumber n)) ?_ ?_
  · rw [longNumber_sub_one]
    exact (hpow 150).mpr hone
  · intro q hq hd
    rw [longNumber_sub_one] at hd ⊢
    have hdvd : q ∣ 150 := hq.dvd_of_dvd_pow (pow_succ 150 n ▸ hd)
    rw [Nat.mul_div_assoc _ hdvd]
    rcases eq_of_prime_dvd hq hdvd with rfl | rfl | rfl
    · exact mt (hpow 75).mp htwo
    · exact mt (hpow 50).mp hthree
    · exact mt (hpow 30).mp hfive

theorem prime_longNumber : (longNumber 2047).Prime :=
  prime_of_hasFullOrder (a := 7) (by decide +kernel)

theorem longNumber_not_writable : Text.isWritable (longNumber 2047) = false := by
  decide +kernel

end ProofCarrying
