import Mathlib.Data.Nat.Prime.Basic
import Mathlib.Tactic.LinearCombination
import Mathlib.Tactic.Ring
import ProofCarrying.Proofs.Operations

/-! Inverses and quotients modulo a number of either sign. The cofactors of the greatest common
divisor give the inverse of an element that is prime to the modulus; no other element divides. -/

namespace ProofCarrying

namespace Residue

/-- The identity holds of the last remainders and is carried back through the divisions. -/
theorem cofactors_spec (a b : Nat) :
    (cofactors a b).1 * a + (cofactors a b).2 * b = (a.gcd b : Int) := by
  fun_induction cofactors a b with
  | case1 a => simp
  | case2 a b s t hst ih =>
    rw [hst] at ih
    have hgcd : Nat.gcd a (b + 1) = Nat.gcd (b + 1) (a % (b + 1)) := by
      rw [Nat.gcd_comm, Nat.gcd_rec, Nat.gcd_comm]
    have hdiv : ((b + 1 : Nat) : Int) * (a / (b + 1) : Nat) + (a % (b + 1) : Nat) = a := by
      exact_mod_cast Nat.div_add_mod a (b + 1)
    rw [hgcd, ← ih]
    linear_combination (-t) * hdiv

theorem gcd_fmod (v m : Int) : Int.gcd (v.fmod m) m = Int.gcd v m := by
  have h := Int.gcd_add_mul_left_left m (v.fmod m) (v.fdiv m)
  rw [Int.fmod_add_mul_fdiv] at h
  exact h.symm

variable {m : Int} {hm : m ≠ 0}

theorem inverse_of_dvd {v : Int} (h : m ∣ v) :
    (reduce v m hm).inverse = .error .zeroInverse :=
  if_pos (Int.fmod_eq_zero_of_dvd h)

theorem value_reduce_ne_zero {v : Int} (h : ¬ m ∣ v) : (reduce v m hm).value ≠ 0 :=
  fun h0 => h (Int.dvd_iff_fmod_eq_zero.mpr h0)

theorem inverse_of_common {v : Int} (h : ¬ m ∣ v) (hg : Int.gcd v m ≠ 1) :
    (reduce v m hm).inverse = .error .notInvertible := by
  have hgcd : Int.gcd (reduce v m hm).value m ≠ 1 := by rwa [value_reduce, gcd_fmod]
  rw [inverse, if_neg (value_reduce_ne_zero h)]
  exact if_neg hgcd

/-- The cofactor of the absolute value, with the sign of the value, inverts it. -/
theorem mul_cofactor_modEq {v : Int} (hg : Int.gcd v m = 1) :
    v * (v.sign * (cofactors v.natAbs m.natAbs).1) ≡ 1 [ZMOD m] := by
  have hspec := cofactors_spec v.natAbs m.natAbs
  have hone : (v.natAbs.gcd m.natAbs : Int) = 1 := by exact_mod_cast hg
  have hv : v * v.sign = v.natAbs := Int.mul_sign_self v
  have hm : m * m.sign = m.natAbs := Int.mul_sign_self m
  rw [hone, ← hv, ← hm] at hspec
  exact Int.modEq_iff_add_fac.mpr
    ⟨m.sign * (cofactors v.natAbs m.natAbs).2, by linear_combination -hspec⟩

theorem inverse_of_coprime {v : Int} (h : ¬ m ∣ v) (hg : Int.gcd v m = 1) :
    ∃ w, (reduce v m hm).inverse = .ok (reduce w m hm) ∧ v * w ≡ 1 [ZMOD m] := by
  let x := reduce v m hm
  have hgcd : Int.gcd x.value m = 1 := (gcd_fmod v m).trans hg
  have hx : x.value ≡ v [ZMOD m] := value_reduce_modEq v
  refine ⟨x.value.sign * (cofactors x.value.natAbs m.natAbs).1, ?_, ?_⟩
  · rw [inverse, if_neg (value_reduce_ne_zero h)]
    exact if_pos hgcd
  · exact (hx.symm.mul_right _).trans (mul_cofactor_modEq hgcd)

theorem mul_reduce_eq_iff {r : Residue} (hr : r.modulus = m) {a d : Int} :
    r.mul (reduce d m hm) = .ok (reduce a m hm) ↔ r.value * d ≡ a [ZMOD m] := by
  have hmul := @mul_reduce m hm r.value d
  rw [← eq_reduce_value hr] at hmul
  rw [hmul, Except.ok.injEq, reduce_eq_reduce_iff]

theorem reduce_mul_eq_iff {r : Residue} (hr : r.modulus = m) {a d : Int} :
    (reduce d m hm).mul r = .ok (reduce a m hm) ↔ r.value * d ≡ a [ZMOD m] := by
  have hmul := @mul_reduce m hm d r.value
  rw [← eq_reduce_value hr] at hmul
  rw [hmul, Except.ok.injEq, reduce_eq_reduce_iff, Int.mul_comm]

/-- An equation of classes is solved by multiplying with the inverse. -/
theorem mul_modEq_iff {a d w r : Int} (hw : d * w ≡ 1 [ZMOD m]) :
    r * d ≡ a [ZMOD m] ↔ r ≡ a * w [ZMOD m] := by
  constructor
  · intro h
    calc r = r * 1 := (Int.mul_one r).symm
      _ ≡ r * (d * w) [ZMOD m] := (hw.mul_left r).symm
      _ = r * d * w := (Int.mul_assoc r d w).symm
      _ ≡ a * w [ZMOD m] := h.mul_right w
  · intro h
    calc r * d ≡ a * w * d [ZMOD m] := h.mul_right d
      _ = a * (d * w) := by ring
      _ ≡ a * 1 [ZMOD m] := hw.mul_left a
      _ = a := Int.mul_one a

theorem eq_reduce_iff {r : Residue} (hr : r.modulus = m) {a : Int} :
    r = reduce a m hm ↔ r.value ≡ a [ZMOD m] := by
  rw [← @reduce_eq_reduce_iff m hm, ← eq_reduce_value hr]

/-- How the search ends for the residue modulo `m` that solves an equation in which it is
multiplied by the class of `d`. -/
structure Divided (m d : Int) (Solves : Residue → Prop) (outcome : Except Fault Residue) :
    Prop where
  division_iff : (∃ f, outcome = .error f ∧ f.told.kind = .division) ↔ m ∣ d
  value_iff : (∃ f, outcome = .error f ∧ f.told.kind = .value) ↔ ¬ m ∣ d ∧ Int.gcd d m ≠ 1
  solution : ¬ m ∣ d → Int.gcd d m = 1 →
    ∃ q, outcome = .ok q ∧ q.modulus = m ∧ ∀ r, r.modulus = m → (Solves r ↔ r = q)

theorem kind_told_zeroInverse : Fault.zeroInverse.told.kind = .division := rfl

theorem kind_told_notInvertible : Fault.notInvertible.told.kind = .value := rfl

namespace Divided

variable {d : Int} {Solves : Residue → Prop} {outcome : Except Fault Residue}

theorem of_cases (hzero : m ∣ d → outcome = .error .zeroInverse)
    (hcommon : ¬ m ∣ d → Int.gcd d m ≠ 1 → outcome = .error .notInvertible)
    (hunit : ¬ m ∣ d → Int.gcd d m = 1 →
      ∃ q, outcome = .ok q ∧ q.modulus = m ∧ ∀ r, r.modulus = m → (Solves r ↔ r = q)) :
    Divided m d Solves outcome := by
  by_cases hd : m ∣ d
  · have ho := hzero hd
    exact ⟨by simp [ho, hd, kind_told_zeroInverse], by simp [ho, hd, kind_told_zeroInverse], hunit⟩
  · by_cases hg : Int.gcd d m = 1
    · obtain ⟨q, ho, -⟩ := hunit hd hg
      exact ⟨by simp [ho, hd], by simp [ho, hg], hunit⟩
    · have ho := hcommon hd hg
      exact ⟨by simp [ho, hd, kind_told_notInvertible],
        by simp [ho, hd, hg, kind_told_notInvertible], hunit⟩

theorem congr {Solves' : Residue → Prop} (h : Divided m d Solves outcome)
    (hs : ∀ r, r.modulus = m → (Solves' r ↔ Solves r)) : Divided m d Solves' outcome := by
  refine ⟨h.division_iff, h.value_iff, ?_⟩
  intro hd hg
  obtain ⟨q, ho, hq, huniq⟩ := h.solution hd hg
  exact ⟨q, ho, hq, fun r hr => (hs r hr).trans (huniq r hr)⟩

end Divided

theorem divided_inverse (v : Int) :
    Divided m v (fun y => (reduce v m hm).mul y = .ok (reduce 1 m hm)) (reduce v m hm).inverse := by
  refine .of_cases inverse_of_dvd inverse_of_common ?_
  intro hv hg
  obtain ⟨w, hw, hmod⟩ := @inverse_of_coprime m hm v hv hg
  refine ⟨_, hw, rfl, ?_⟩
  intro r hr
  rw [reduce_mul_eq_iff hr, mul_modEq_iff hmod, Int.one_mul, eq_reduce_iff hr]

theorem div_reduce (a d : Int) : (reduce a m hm).div (reduce d m hm) =
    match (reduce d m hm).inverse with
    | .ok z => (reduce a m hm).mul z
    | .error e => .error e :=
  if_pos rfl

theorem divided_div (a d : Int) : Divided m d
    (fun q => q.mul (reduce d m hm) = .ok (reduce a m hm))
    ((reduce a m hm).div (reduce d m hm)) := by
  refine .of_cases ?_ ?_ ?_
  · intro hd
    rw [div_reduce, inverse_of_dvd hd]
  · intro hd hg
    rw [div_reduce, inverse_of_common hd hg]
  · intro hd hg
    obtain ⟨w, hw, hmod⟩ := @inverse_of_coprime m hm d hd hg
    have hdiv : (reduce a m hm).div (reduce d m hm) = .ok (reduce (a * w) m hm) := by
      rw [div_reduce, hw]
      exact mul_reduce a w
    refine ⟨_, hdiv, rfl, ?_⟩
    intro r hr
    rw [mul_reduce_eq_iff hr, mul_modEq_iff hmod, eq_reduce_iff hr]

theorem gcd_of_prime {d : Int} (hp : m.natAbs.Prime) (h : ¬ m ∣ d) : Int.gcd d m = 1 := by
  have hnat : ¬ m.natAbs ∣ d.natAbs := fun hd => h (Int.natAbs_dvd_natAbs.mp hd)
  rw [Int.gcd_comm]
  exact hp.coprime_iff_not_dvd.mpr hnat

theorem lift_eq_reduce {r : Residue} (hr : r.modulus = m) (n : Int) : r.lift n = reduce n m hm := by
  subst hr
  rfl

/-- The inverse of an element, and quotients by and of it, are the only residues that give back
one and the dividend. They are refused where the modulus divides the divisor, and where the two
have a common factor, and nowhere else. -/
theorem inverse_and_quotients {m : Int} (hm : m ≠ 0) (v : Int) :
    Divided m v (fun y => (reduce v m hm).mul y = .ok (reduce 1 m hm)) (reduce v m hm).inverse ∧
    (∀ d, Divided m d
      (fun q => Operand.mul (.element q) (.element (reduce d m hm)) = .ok (reduce v m hm))
      (Operand.div (.element (reduce v m hm)) (.element (reduce d m hm)))) ∧
    (∀ d n, d.toInt? = some n →
      Divided m n (fun q => Operand.mul (.element q) (.raw d) = .ok (reduce v m hm))
        (Operand.div (.element (reduce v m hm)) (.raw d)) ∧
      Divided m v
        (fun q => Operand.mul (.element q) (.element (reduce v m hm)) = .ok (reduce n m hm))
        (Operand.div (.raw d) (.element (reduce v m hm)))) ∧
    (m.natAbs.Prime → ∀ d : Residue, d.modulus = m → d.value ≠ 0 →
      ∃ q, Operand.div (.element (reduce v m hm)) (.element d) = .ok q) := by
  refine ⟨divided_inverse v, divided_div v, ?_, ?_⟩
  · intro d n hd
    constructor
    · rw [Operand.div, Operand.lifted_raw_right Residue.div _ hd]
      refine (divided_div v n).congr ?_
      intro r hr
      rw [Operand.mul, Operand.lifted_raw_right Residue.mul r hd, lift_eq_reduce hr]
    · rw [Operand.div, Operand.lifted_raw_left Residue.div _ hd]
      exact divided_div n v
  · intro hp d hd hne
    have hndvd : ¬ m ∣ d.value := by
      intro h
      apply hne
      rw [← d.value_fmod, hd]
      exact Int.fmod_eq_zero_of_dvd h
    obtain ⟨q, hq, -⟩ := (@divided_div m hm v d.value).solution hndvd (gcd_of_prime hp hndvd)
    rw [← eq_reduce_value hd] at hq
    exact ⟨q, hq⟩

/-- Modulo -12, five is its own inverse, eight has a factor in common with the modulus, and 24
is no divisor. Modulo 7, all but zero are divisors. -/
theorem inverse_and_quotients_negative_twelve :
    ∃ x y q z : Residue, ofInt 5 (-12) = .ok x ∧ x.inverse = .ok y ∧ y.value = -7 ∧
      Operand.div (.raw (.integer 7)) (.element x) = .ok q ∧ q.value = -1 ∧
      (∃ f, Operand.div (.element x) (.raw (.integer 8)) = .error f ∧ f.told.kind = .value) ∧
      (∃ f, Operand.div (.element x) (.raw (.integer 24)) = .error f ∧ f.told.kind = .division) ∧
      ofInt 6 7 = .ok z ∧ ∃ t, Operand.div (.element z) (.element z) = .ok t := by
  have hm : (-12 : Int) ≠ 0 := by decide
  have hp : (7 : Int) ≠ 0 := by decide
  obtain ⟨hinv, -, hraw, -⟩ := inverse_and_quotients hm 5
  obtain ⟨-, -, -, hprime⟩ := inverse_and_quotients hp 6
  obtain ⟨y, hy, -, huniq⟩ := hinv.solution (by decide) (by decide)
  obtain ⟨q, hq, -, hquot⟩ := (hraw (.integer 7) 7 rfl).2.solution (by decide) (by decide)
  have hyv : y = reduce (-7) (-12) hm := ((huniq _ rfl).mp rfl).symm
  have hsix : (reduce 6 7 hp).value ≠ 0 := by
    rw [value_reduce]
    decide
  have hqv : q = reduce (-1) (-12) hm := ((hquot _ rfl).mp rfl).symm
  refine ⟨reduce 5 (-12) hm, y, q, reduce 6 7 hp, rfl, hy, by rw [hyv]; rfl, hq, by rw [hqv]; rfl,
    ?_, ?_, rfl, ?_⟩
  · exact (hraw (.integer 8) 8 rfl).1.value_iff.mpr (by decide)
  · exact (hraw (.integer 24) 24 rfl).1.division_iff.mpr (by decide)
  · exact hprime (by decide) _ rfl hsix

end Residue

end ProofCarrying
