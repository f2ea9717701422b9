import ProofCarrying.Operand
import ProofCarrying.Proofs.Congruences

/-! Arithmetic on elements is arithmetic on the integers of their classes, whatever the sign of
the modulus, and whether a plain number stands on the left or on the right. -/

namespace ProofCarrying

namespace Operand

variable {m : Int} {hm : m ≠ 0}

/-- An operation does to the classes modulo `m` what `f` does to integers. A plain integer or
truth value counts as its class, on either side. -/
structure Computes (m : Int) (hm : m ≠ 0) (op : Operand → Operand → Except Fault Residue)
    (f : Int → Int → Int) : Prop where
  elements : ∀ a b, op (element (.reduce a m hm)) (element (.reduce b m hm)) =
    .ok (.reduce (f a b) m hm)
  raw_right : ∀ a d n, d.toInt? = some n →
    op (element (.reduce a m hm)) (raw d) = .ok (.reduce (f a n) m hm)
  raw_left : ∀ d n b, d.toInt? = some n →
    op (raw d) (element (.reduce b m hm)) = .ok (.reduce (f n b) m hm)

theorem lifted_raw_right (op : Residue → Residue → Except Fault Residue) (x : Residue) {d : Datum}
    {n : Int} (h : d.toInt? = some n) : lifted op (element x) (raw d) = op x (x.lift n) := by
  simp only [lifted, h]

theorem lifted_raw_left (op : Residue → Residue → Except Fault Residue) (y : Residue) {d : Datum}
    {n : Int} (h : d.toInt? = some n) : lifted op (raw d) (element y) = op (y.lift n) y := by
  simp only [lifted, h]

theorem lifted_computes {op : Residue → Residue → Except Fault Residue} {f : Int → Int → Int}
    (h : ∀ a b, op (.reduce a m hm) (.reduce b m hm) = .ok (.reduce (f a b) m hm)) :
    Computes m hm (lifted op) f where
  elements := h
  raw_right a d n hd := by
    rw [lifted_raw_right op _ hd]
    exact h a n
  raw_left d n b hd := by
    rw [lifted_raw_left op _ hd]
    exact h n b

/-- A plain integer is subtracted from like an element; only a fraction is not. -/
theorem sub_eq_lifted {d : Datum} (h : ∀ v, d ≠ .float v) (b : Operand) :
    sub (raw d) b = lifted Residue.sub (raw d) b := by
  cases d with
  | float v => exact absurd rfl (h v)
  | _ => rfl

theorem add_computes : Computes m hm add (· + ·) :=
  lifted_computes Residue.add_reduce

theorem mul_computes : Computes m hm mul (· * ·) :=
  lifted_computes Residue.mul_reduce

theorem sub_computes : Computes m hm sub (· - ·) := by
  have hl : Computes m hm (lifted Residue.sub) (· - ·) := lifted_computes Residue.sub_reduce
  refine ⟨hl.elements, hl.raw_right, ?_⟩
  intro d n b hd
  have hne : ∀ v, d ≠ .float v := by
    rintro v rfl
    cases hd
  rw [sub_eq_lifted hne]
  exact hl.raw_left d n b hd

theorem same_reduce_iff {a b : Int} :
    same (element (.reduce a m hm)) (element (.reduce b m hm)) = true ↔ m ∣ a - b := by
  rw [same, beq_iff_eq, Residue.reduce_eq_reduce_iff]
  exact Int.modEq_comm.trans Int.modEq_iff_dvd

theorem same_of_ne {x y : Residue} (h : x.modulus ≠ y.modulus) :
    same (element x) (element y) = false := by
  rw [same, beq_eq_false_iff_ne]
  exact fun hxy => h (congrArg Residue.modulus hxy)

theorem refused_of_ne {x y : Residue} (h : x.modulus ≠ y.modulus) :
    ∀ op ∈ [add, sub, mul, div],
      op (element x) (element y) = .error (.mixedModuli x.modulus y.modulus) := by
  have hc := fun f => Residue.combine_of_ne f h
  simpa using ⟨hc (· + ·), hc (· - ·), hc (· * ·), Residue.div_of_ne h⟩

/-- The elements of a modulus other than zero are the integers modulo that number: each stands
for a class by its remainder, and sums, differences, products and negatives are those of the
classes. Elements of two moduli are different and do not combine. -/
theorem arithmetic_of_classes {m : Int} (hm : m ≠ 0) :
    (∀ a, ∃ x, Residue.ofInt a m = .ok x ∧ x = .reduce a m hm ∧ m ∣ a - x.value ∧
      (0 < m → 0 ≤ x.value ∧ x.value < m) ∧ (m < 0 → m < x.value ∧ x.value ≤ 0)) ∧
    (∀ a b, same (element (.reduce a m hm)) (element (.reduce b m hm)) = true ↔ m ∣ a - b) ∧
    Computes m hm add (· + ·) ∧ Computes m hm sub (· - ·) ∧ Computes m hm mul (· * ·) ∧
    (∀ a, Residue.neg (.reduce a m hm) = .reduce (-a) m hm) ∧
    ∀ x y : Residue, x.modulus ≠ y.modulus → same (element x) (element y) = false ∧
      ∀ op ∈ [add, sub, mul, div],
        ∃ f, op (element x) (element y) = .error f ∧ f.told.kind = .value := by
  refine ⟨?_, fun a b => same_reduce_iff, add_computes, sub_computes, mul_computes,
    Residue.neg_reduce, ?_⟩
  · intro a
    have hdvd : m ∣ a - a.fmod m := Int.modEq_iff_dvd.mp (Residue.fmod_modEq a m)
    have hpos : 0 < m → 0 ≤ a.fmod m ∧ a.fmod m < m := fun h =>
      ⟨Int.fmod_nonneg_of_pos a h, Int.fmod_lt_of_pos a h⟩
    have hneg : m < 0 → m < a.fmod m ∧ a.fmod m ≤ 0 := fun h => Residue.fmod_range_of_neg h a
    exact ⟨_, Residue.ofInt_eq_ok a, rfl, hdvd, hpos, hneg⟩
  · intro x y h
    refine ⟨same_of_ne h, ?_⟩
    intro op hop
    exact ⟨_, refused_of_ne h op hop, Fault.kind_told_mixedModuli _ _⟩

/-- Modulo -7, three minus the class of five, and a truth value times a class; the class of five
modulo 7 is another element. -/
theorem arithmetic_of_classes_negative_seven :
    ∃ x y z : Residue, Residue.ofInt 5 (-7) = .ok x ∧ x.value = -2 ∧
      Residue.ofInt 12 (-7) = .ok y ∧ Residue.ofInt 5 7 = .ok z ∧
      same (element x) (element y) = true ∧
      sub (raw (.integer 3)) (element x) = Residue.ofInt (-2) (-7) ∧
      mul (element x) (raw (.boolean true)) = .ok x ∧
      same (element x) (element z) = false ∧
      ∃ f, div (element x) (element z) = .error f ∧ f.told.kind = .value := by
  have hm : (-7 : Int) ≠ 0 := by decide
  obtain ⟨hstored, hsame, -, hsub, hmul, -, hmixed⟩ := arithmetic_of_classes hm
  obtain ⟨x, hx, rfl, -⟩ := hstored 5
  obtain ⟨y, hy, rfl, -⟩ := hstored 12
  obtain ⟨w, hw, rfl, -⟩ := hstored (-2)
  let z : Residue := .reduce 5 7 (by decide)
  have hne : (Residue.reduce 5 (-7) hm).modulus ≠ z.modulus := by simp [z]
  obtain ⟨hdiffer, hrefused⟩ := hmixed _ _ hne
  refine ⟨_, _, z, hx, rfl, hy, by decide, (hsame 5 12).mpr (by decide), ?_, ?_,
    hdiffer, hrefused div (by simp)⟩
  · rw [hw]
    exact hsub.raw_left (.integer 3) 3 5 rfl
  · exact hmul.raw_right 5 (.boolean true) 1 rfl

end Operand

end ProofCarrying
