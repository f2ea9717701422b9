import Mathlib.Data.Int.ModEq
import ProofCarrying.Residue

/-! Residues stand for the classes of congruent integers. The modulus may have either sign, and
the remainder that represents a class lies between zero and the modulus. -/

namespace ProofCarrying

namespace Residue

theorem fmod_modEq (n m : Int) : n.fmod m ≡ n [ZMOD m] :=
  Int.modEq_iff_add_fac.mpr ⟨n.fdiv m, (Int.fmod_add_mul_fdiv n m).symm⟩

theorem fmod_eq_fmod_iff {a b m : Int} : a.fmod m = b.fmod m ↔ a ≡ b [ZMOD m] := by
  constructor
  · intro h
    have hb := fmod_modEq b m
    rw [← h] at hb
    exact (fmod_modEq a m).symm.trans hb
  · intro h
    obtain ⟨t, rfl⟩ := Int.modEq_iff_add_fac.mp h
    exact (Int.add_mul_fmod_self_left a m t).symm

/-- Division rounded down by a negative number leaves a remainder that is not positive. -/
theorem fmod_range_of_neg {m : Int} (h : m < 0) (n : Int) : m < n.fmod m ∧ n.fmod m ≤ 0 := by
  have hpos : 0 < -m := by omega
  have hneg : (-n).fmod (-m) = -n.fmod m := Int.neg_fmod_neg n m
  have h0 := Int.fmod_nonneg_of_pos (-n) hpos
  have hlt := Int.fmod_lt_of_pos (-n) hpos
  omega

variable {m : Int} {hm : m ≠ 0}

@[simp] theorem modulus_reduce (n : Int) : (reduce n m hm).modulus = m := rfl

@[simp] theorem value_reduce (n : Int) : (reduce n m hm).value = n.fmod m := rfl

theorem value_reduce_modEq (n : Int) : (reduce n m hm).value ≡ n [ZMOD m] :=
  fmod_modEq n m

theorem reduce_eq_reduce_iff {a b : Int} :
    reduce a m hm = reduce b m hm ↔ a ≡ b [ZMOD m] := by
  constructor
  · intro h
    exact fmod_eq_fmod_iff.mp (congrArg value h)
  · intro h
    exact ext rfl (fmod_eq_fmod_iff.mpr h)

theorem eq_reduce_value {x : Residue} (h : x.modulus = m) : x = reduce x.value m hm := by
  subst h
  exact ext rfl x.value_fmod.symm

theorem ofInt_eq_ok (n : Int) : ofInt n m = .ok (reduce n m hm) :=
  dif_neg hm

/-- An operation that respects congruence may be done before or after taking residues. -/
theorem combine_reduce {op : Int → Int → Int}
    (hop : ∀ {a b c d : Int}, a ≡ b [ZMOD m] → c ≡ d [ZMOD m] → op a c ≡ op b d [ZMOD m])
    (a b : Int) : combine op (reduce a m hm) (reduce b m hm) = .ok (reduce (op a b) m hm) := by
  have heq : (reduce a m hm).modulus = (reduce b m hm).modulus := rfl
  have hcongr := hop (@value_reduce_modEq m hm a) (@value_reduce_modEq m hm b)
  rw [combine, if_pos heq]
  exact congrArg Except.ok (reduce_eq_reduce_iff.mpr hcongr)

theorem add_reduce (a b : Int) :
    (reduce a m hm).add (reduce b m hm) = .ok (reduce (a + b) m hm) :=
  combine_reduce Int.ModEq.add a b

theorem sub_reduce (a b : Int) :
    (reduce a m hm).sub (reduce b m hm) = .ok (reduce (a - b) m hm) :=
  combine_reduce Int.ModEq.sub a b

theorem mul_reduce (a b : Int) :
    (reduce a m hm).mul (reduce b m hm) = .ok (reduce (a * b) m hm) :=
  combine_reduce Int.ModEq.mul a b

theorem neg_reduce (a : Int) : (reduce a m hm).neg = reduce (-a) m hm :=
  reduce_eq_reduce_iff.mpr (@value_reduce_modEq m hm a).neg

variable {x y : Residue}

theorem combine_of_eq (op : Int → Int → Int) (h : x.modulus = y.modulus) :
    combine op x y = .ok (x.lift (op x.value y.value)) :=
  if_pos h

theorem combine_of_ne (op : Int → Int → Int) (h : x.modulus ≠ y.modulus) :
    combine op x y = .error (.mixedModuli x.modulus y.modulus) :=
  if_neg h

theorem add_of_ne (h : x.modulus ≠ y.modulus) :
    x.add y = .error (.mixedModuli x.modulus y.modulus) :=
  combine_of_ne _ h

theorem mul_of_eq (h : x.modulus = y.modulus) : x.mul y = .ok (x.lift (x.value * y.value)) :=
  combine_of_eq _ h

theorem mul_of_ne (h : x.modulus ≠ y.modulus) :
    x.mul y = .error (.mixedModuli x.modulus y.modulus) :=
  combine_of_ne _ h

theorem div_of_ne (h : x.modulus ≠ y.modulus) :
    x.div y = .error (.mixedModuli x.modulus y.modulus) :=
  if_neg h

end Residue

namespace Fault

theorem kind_told_mixedModuli (m n : Int) : (mixedModuli m n).told.kind = .value :=
  kind_told_of_value rfl

end Fault

end ProofCarrying
