import Mathlib.Algebra.BigOperators.Group.Finset.Piecewise
import Mathlib.Algebra.BigOperators.ModEq
import Mathlib.Logic.Relation
import ProofCarrying.Proofs.Coefficients

/-! The coefficients of a combination added up by variable. A combination has the value that its
totals give, so the order of its terms does not count, nor do repeated variables or coefficients
of zero. -/

namespace ProofCarrying

namespace RankOne

def Over (F : ScalarField) (z : List Residue) : Prop :=
  ∀ x ∈ z, x.modulus = F.modulus

namespace Combination

def CoefficientsIn (F : ScalarField) (l : Combination) : Prop :=
  ∀ t ∈ l, t.coefficient.modulus = F.modulus

/-- The integer sum of the coefficients of one variable. -/
def total (l : Combination) (i : Nat) : Int :=
  (l.map fun t => if t.index = i then t.coefficient.value else 0).sum

theorem total_cons (t : Term) (l : Combination) (i : Nat) :
    total (t :: l) i = (if t.index = i then t.coefficient.value else 0) + total l i := rfl

theorem dot_cons (t : Term) (l : Combination) (v : Nat → Int) :
    dot (t :: l) v = t.coefficient.value * v t.index + dot l v := rfl

theorem dot_eq_sum_total {l : Combination} {n : Nat} (h : l.width ≤ n) (v : Nat → Int) :
    l.dot v = ∑ i ∈ Finset.range n, l.total i * v i := by
  induction l with
  | nil => simp [dot, total]
  | cons t l ih =>
    have hall := width_le_iff.mp h
    have ht : t.index < n := hall t (by simp)
    have hl : width l ≤ n := width_le_iff.mpr fun u hu => hall u (by simp [hu])
    have hone : ∑ i ∈ Finset.range n, (if t.index = i then t.coefficient.value else 0) * v i =
        t.coefficient.value * v t.index := by
      simp [ht]
    rw [dot_cons, ih hl, ← hone, ← Finset.sum_add_distrib]
    refine Finset.sum_congr rfl ?_
    intro i _
    rw [total_cons, Int.add_mul]

section

variable {F : ScalarField} {z : List Residue} {l r : Combination}

theorem width_le_of_maxIndex_lt {n : Nat} (h : l.maxIndex < n) : l.width ≤ n := by
  rw [maxIndex] at h
  omega

theorem evaluate_eq_total (hl : l.CoefficientsIn F) (hz : Over F z) (hw : l.width ≤ z.length) :
    l.evaluate F z =
      .ok (F.element (∑ i ∈ Finset.range z.length, l.total i * wire z i)) := by
  rw [evaluate_within (within_of_width_le hl hz hw), dot_eq_sum_total hw]

theorem evaluate_eq_of_total {f : Nat → Int} (hl : l.CoefficientsIn F) (hz : Over F z)
    (hw : l.width ≤ z.length) (h : ∀ i, l.total i ≡ f i [ZMOD F.modulus]) :
    l.evaluate F z = .ok (F.element (∑ i ∈ Finset.range z.length, f i * wire z i)) := by
  rw [evaluate_eq_total hl hz hw]
  refine congrArg Except.ok (ScalarField.element_eq_iff.mpr ?_)
  exact Int.ModEq.sum fun i _ => (h i).mul_right _

theorem evaluate_congr (hl : l.CoefficientsIn F) (hr : r.CoefficientsIn F) (hz : Over F z)
    (hlw : l.width ≤ z.length) (hrw : r.width ≤ z.length)
    (h : ∀ i, l.total i ≡ r.total i [ZMOD F.modulus]) : l.evaluate F z = r.evaluate F z := by
  rw [evaluate_eq_of_total hl hz hlw h, evaluate_eq_total hr hz hrw]

end

/-- One change to the terms: another order, a term less whose coefficient is zero, or one term in
place of two of the same variable. -/
inductive Step : Combination → Combination → Prop
  | permute {l r : Combination} (h : l.Perm r) : Step l r
  | drop {i : Nat} {c : Residue} (l : Combination) (h : c.value = 0) : Step (⟨i, c⟩ :: l) l
  | merge {i : Nat} {c d e : Residue} (l : Combination) (h : c.add d = .ok e) :
    Step (⟨i, c⟩ :: ⟨i, d⟩ :: l) (⟨i, e⟩ :: l)

abbrev Rearranges : Combination → Combination → Prop :=
  Relation.ReflTransGen Step

/-- What is left of a combination over a field after a rearrangement. -/
structure Keeps (F : ScalarField) (l r : Combination) : Prop where
  coefficients : r.CoefficientsIn F
  indices : ∀ u ∈ r, ∃ t ∈ l, t.index = u.index
  total : ∀ i, l.total i ≡ r.total i [ZMOD F.modulus]

section

variable {F : ScalarField} {l r k : Combination}

theorem Keeps.refl (hl : l.CoefficientsIn F) : Keeps F l l :=
  ⟨hl, fun u hu => ⟨u, hu, rfl⟩, fun _ => .rfl⟩

theorem Keeps.trans (h : Keeps F l r) (h' : Keeps F r k) : Keeps F l k := by
  refine ⟨h'.coefficients, ?_, fun i => (h.total i).trans (h'.total i)⟩
  intro u hu
  obtain ⟨t, ht, htu⟩ := h'.indices u hu
  obtain ⟨s, hs, hst⟩ := h.indices t ht
  exact ⟨s, hs, hst.trans htu⟩

theorem Keeps.width_le (h : Keeps F l r) {n : Nat} (hl : l.width ≤ n) : r.width ≤ n := by
  refine width_le_iff.mpr ?_
  intro u hu
  obtain ⟨t, ht, htu⟩ := h.indices u hu
  rw [← htu]
  exact width_le_iff.mp hl t ht

theorem keeps_permute (hl : l.CoefficientsIn F) (h : l.Perm r) : Keeps F l r := by
  refine ⟨fun u hu => hl u (h.mem_iff.mpr hu), fun u hu => ⟨u, h.mem_iff.mpr hu, rfl⟩, ?_⟩
  intro i
  have hsum := (h.map fun t => if t.index = i then t.coefficient.value else 0).sum_eq
  exact congrArg (· % (F.modulus : Int)) hsum

theorem keeps_drop {i : Nat} {c : Residue} (hl : CoefficientsIn F (⟨i, c⟩ :: l))
    (h : c.value = 0) : Keeps F (⟨i, c⟩ :: l) l := by
  refine ⟨fun u hu => hl u (by simp [hu]), fun u hu => ⟨u, by simp [hu], rfl⟩, ?_⟩
  intro j
  simp [total_cons, h]

theorem keeps_merge {i : Nat} {c d e : Residue} (hl : CoefficientsIn F (⟨i, c⟩ :: ⟨i, d⟩ :: l))
    (h : c.add d = .ok e) : Keeps F (⟨i, c⟩ :: ⟨i, d⟩ :: l) (⟨i, e⟩ :: l) := by
  have hc : c.modulus = F.modulus := hl ⟨i, c⟩ (by simp)
  have hd : d.modulus = F.modulus := hl ⟨i, d⟩ (by simp)
  obtain rfl : F.element (c.value + d.value) = e := by
    rw [ScalarField.eq_element_value hc, ScalarField.eq_element_value hd, F.add_element] at h
    exact Except.ok.inj h
  refine ⟨?_, ?_, ?_⟩
  · intro u hu
    rcases List.mem_cons.mp hu with rfl | hu
    · rfl
    · exact hl u (by simp [hu])
  · intro u hu
    rcases List.mem_cons.mp hu with rfl | hu
    · exact ⟨⟨i, c⟩, by simp, rfl⟩
    · exact ⟨u, by simp [hu], rfl⟩
  · intro j
    simp only [total_cons]
    by_cases hij : i = j
    · have hmod := (F.value_element_modEq (c.value + d.value)).symm
      simpa [hij, Int.add_assoc] using hmod.add_right (total l j)
    · simp [hij]

theorem Step.keeps (hl : l.CoefficientsIn F) (h : Step l r) : Keeps F l r := by
  cases h with
  | permute hp => exact keeps_permute hl hp
  | drop _ hz => exact keeps_drop hl hz
  | merge _ hs => exact keeps_merge hl hs

theorem Rearranges.keeps (hl : l.CoefficientsIn F) (h : Rearranges l r) : Keeps F l r := by
  induction h with
  | refl => exact .refl hl
  | tail _ hstep ih => exact ih.trans (hstep.keeps ih.coefficients)

theorem Keeps.evaluate_eq {z : List Residue} (h : Keeps F l r) (hl : l.CoefficientsIn F)
    (hz : Over F z) (hw : l.width ≤ z.length) : r.evaluate F z = l.evaluate F z :=
  (evaluate_congr hl h.coefficients hz hw (h.width_le hw) h.total).symm

end

end Combination

end RankOne

end ProofCarrying
