import Mathlib.Algebra.BigOperators.Group.List.Basic
import ProofCarrying.Proofs.Congruences
import ProofCarrying.RankOne.System

/-! Linear combinations as dot products over the integers. Where no residue of another modulus
takes part, a rank-one system is a list of congruences between such products. -/

namespace ProofCarrying

namespace ScalarField

theorem element_eq_iff {F : ScalarField} {a b : Int} :
    F.element a = F.element b ↔ a ≡ b [ZMOD F.modulus] :=
  Residue.reduce_eq_reduce_iff

theorem element_eq_zero_iff {F : ScalarField} {a : Int} :
    F.element a = F.zero ↔ (F.modulus : Int) ∣ a :=
  element_eq_iff.trans Int.modEq_zero_iff_dvd

theorem value_element_of_lt {F : ScalarField} {n : Nat} (h : n < F.modulus) :
    (F.element n).value = n := by
  rw [value_element, Int.fmod_eq_emod_of_nonneg _ (by omega)]
  exact Int.emod_eq_of_lt (by omega) (by omega)

theorem eq_element_value {F : ScalarField} {x : Residue} (h : x.modulus = F.modulus) :
    x = F.element x.value :=
  Residue.eq_reduce_value h

theorem value_element_modEq (F : ScalarField) (n : Int) :
    (F.element n).value ≡ n [ZMOD F.modulus] :=
  Residue.value_reduce_modEq n

theorem add_element (F : ScalarField) (a b : Int) :
    (F.element a).add (F.element b) = .ok (F.element (a + b)) :=
  Residue.add_reduce a b

theorem mul_element (F : ScalarField) (a b : Int) :
    (F.element a).mul (F.element b) = .ok (F.element (a * b)) :=
  Residue.mul_reduce a b

end ScalarField

namespace RankOne

/-- The integer on a wire, which is zero beyond the assignment. -/
def wire (z : List Residue) (i : Nat) : Int :=
  (z.map Residue.value).getD i 0

theorem wire_of_getElem? {z : List Residue} {i : Nat} {x : Residue} (h : z[i]? = some x) :
    wire z i = x.value := by
  simp [wire, h]

theorem wire_eq_getElem? (z : List Residue) (i : Nat) :
    wire z i = (z[i]?.map Residue.value).getD 0 := by
  simp [wire]

theorem wire_append_left {y : List Residue} {i : Nat} (h : i < y.length) (z : List Residue) :
    wire (y ++ z) i = wire y i := by
  rw [wire_eq_getElem?, wire_eq_getElem?, List.getElem?_append_left h]

theorem wire_append_right (y z : List Residue) (i : Nat) :
    wire (y ++ z) (y.length + i) = wire z i := by
  rw [wire_eq_getElem?, wire_eq_getElem?, List.getElem?_append_right (by omega),
    Nat.add_sub_cancel_left]

namespace Combination

def dot (l : Combination) (v : Nat → Int) : Int :=
  (l.map fun t => t.coefficient.value * v t.index).sum

/-- Every term multiplies a coefficient of the field with a wire that holds an element of the
field. -/
def Within (F : ScalarField) (z : List Residue) (l : Combination) : Prop :=
  ∀ t ∈ l, t.coefficient.modulus = F.modulus ∧ ∃ x, z[t.index]? = some x ∧ x.modulus = F.modulus

theorem accumulate_within {F : ScalarField} {z : List Residue} {l : Combination}
    (h : l.Within F z) (n : Int) :
    accumulate z (F.element n) l = .ok (F.element (n + l.dot (wire z))) := by
  induction l generalizing n with
  | nil => simp [accumulate, dot]
  | cons t ts ih =>
    obtain ⟨hc, x, hx, hm⟩ := h t (by simp)
    have hts : Within F z ts := fun u hu => h u (by simp [hu])
    have hmul : t.coefficient.mul x = .ok (F.element (t.coefficient.value * x.value)) := by
      conv_lhs => rw [ScalarField.eq_element_value hc, ScalarField.eq_element_value hm]
      exact F.mul_element _ _
    have hw := wire_of_getElem? hx
    simp only [accumulate, hx, hmul, bind, Except.bind, F.add_element, ih hts, dot,
      List.map_cons, List.sum_cons, hw, Int.add_assoc]

theorem evaluate_within {F : ScalarField} {z : List Residue} {l : Combination}
    (h : l.Within F z) : l.evaluate F z = .ok (F.element (l.dot (wire z))) := by
  have hh := accumulate_within h 0
  rwa [Int.zero_add] at hh

theorem le_foldl_width (l : Combination) (n : Nat) :
    n ≤ l.foldl (fun n t => Nat.max n (t.index + 1)) n := by
  induction l generalizing n with
  | nil => exact Nat.le_refl n
  | cons t ts ih => exact (Nat.le_max_left n (t.index + 1)).trans (ih _)

theorem index_lt_foldl_width {l : Combination} {t : Term} (h : t ∈ l) (n : Nat) :
    t.index < l.foldl (fun n t => Nat.max n (t.index + 1)) n := by
  induction l generalizing n with
  | nil => simp at h
  | cons u us ih =>
    rcases List.mem_cons.mp h with rfl | hu
    · exact (Nat.le_max_right n (t.index + 1)).trans (le_foldl_width us _)
    · exact ih hu _

theorem index_lt_width {l : Combination} {t : Term} (h : t ∈ l) : t.index < l.width :=
  index_lt_foldl_width h 0

theorem within_of_width_le {F : ScalarField} {z : List Residue} {l : Combination}
    (hc : ∀ t ∈ l, t.coefficient.modulus = F.modulus)
    (hz : ∀ x ∈ z, x.modulus = F.modulus) (hw : l.width ≤ z.length) : l.Within F z := by
  intro t ht
  have hlt : t.index < z.length := (index_lt_width ht).trans_le hw
  exact ⟨hc t ht, z[t.index], List.getElem?_eq_getElem hlt, hz _ (List.getElem_mem hlt)⟩

end Combination

namespace Constraint

def Within (F : ScalarField) (z : List Residue) (k : Constraint) : Prop :=
  k.a.Within F z ∧ k.b.Within F z ∧ k.c.Within F z

def Balances (F : ScalarField) (v : Nat → Int) (k : Constraint) : Prop :=
  k.a.dot v * k.b.dot v ≡ k.c.dot v [ZMOD F.modulus]

instance (F : ScalarField) (v : Nat → Int) (k : Constraint) : Decidable (k.Balances F v) :=
  inferInstanceAs (Decidable (_ ≡ _ [ZMOD _]))

theorem holds_within {F : ScalarField} {z : List Residue} {k : Constraint}
    (h : k.Within F z) : k.holds F z = .ok (decide (k.Balances F (wire z))) := by
  have ha := Combination.evaluate_within h.1
  have hb := Combination.evaluate_within h.2.1
  have hc := Combination.evaluate_within h.2.2
  have he : ∀ m n : Int, (F.element m == F.element n) = decide (m ≡ n [ZMOD F.modulus]) := by
    intro m n
    rw [Bool.eq_iff_iff, beq_iff_eq, decide_eq_true_iff, ScalarField.element_eq_iff]
  simp only [holds, ha, hb, hc, bind, Except.bind, F.mul_element, he]
  rfl

def CoefficientsIn (F : ScalarField) (k : Constraint) : Prop :=
  ∀ t ∈ k.a ++ k.b ++ k.c, t.coefficient.modulus = F.modulus

theorem coefficientsIn_iff {F : ScalarField} {k : Constraint} : k.CoefficientsIn F ↔
    ((∀ t ∈ k.a, t.coefficient.modulus = F.modulus) ∧
      ∀ t ∈ k.b, t.coefficient.modulus = F.modulus) ∧
        ∀ t ∈ k.c, t.coefficient.modulus = F.modulus := by
  rw [CoefficientsIn, List.forall_mem_append, List.forall_mem_append]

theorem widths_le_iff {k : Constraint} {n : Nat} :
    k.width ≤ n ↔ k.a.width ≤ n ∧ k.b.width ≤ n ∧ k.c.width ≤ n := by
  have hm : ∀ i j : Nat, Nat.max i j ≤ n ↔ i ≤ n ∧ j ≤ n := fun i j => Nat.max_le
  simp only [width, hm]

theorem within_of_width_le {F : ScalarField} {z : List Residue} {k : Constraint}
    (hc : k.CoefficientsIn F) (hz : ∀ x ∈ z, x.modulus = F.modulus)
    (hw : k.width ≤ z.length) : k.Within F z := by
  obtain ⟨ha, hb, hd⟩ := widths_le_iff.mp hw
  obtain ⟨⟨hca, hcb⟩, hcd⟩ := coefficientsIn_iff.mp hc
  refine ⟨?_, ?_, ?_⟩
  · exact Combination.within_of_width_le hca hz ha
  · exact Combination.within_of_width_le hcb hz hb
  · exact Combination.within_of_width_le hcd hz hd

end Constraint

namespace System

theorem check_within {F : ScalarField} {z : List Residue} {ks : List Constraint}
    (h : ∀ k ∈ ks, k.Within F z) (total position : Nat) :
    (check F z total position ks).outcome =
      .ok (decide (∀ k ∈ ks, k.Balances F (wire z))) := by
  induction ks generalizing position with
  | nil => simp [check, Traced.silent]
  | cons k ks ih =>
    have hk := Constraint.holds_within (h k (by simp))
    have hks := ih (fun j hj => h j (by simp [hj])) (position + 1)
    by_cases hb : k.Balances F (wire z)
    · rw [check, hk, decide_eq_true hb]
      simpa [hb] using hks
    · rw [check, hk, decide_eq_false hb]
      simp [hb]

theorem length_assignment {s : System} {primary auxiliary : List Residue}
    (ha : primary.length + auxiliary.length + 1 = s.numTotalVariables) :
    (s.assignment primary auxiliary).length = s.numTotalVariables := by
  simp only [assignment, List.length_cons, List.length_append, ha]

/-- Whether a system is satisfied by vectors of the right lengths over its field. -/
theorem isSatisfied_within {s : System} {primary auxiliary : List Residue}
    (hp : primary.length + 1 = s.numPublicInputs)
    (ha : primary.length + auxiliary.length + 1 = s.numTotalVariables)
    (hc : ∀ k ∈ s.constraints, k.CoefficientsIn s.field)
    (hz : ∀ x ∈ primary ++ auxiliary, x.modulus = s.field.modulus) :
    (s.isSatisfied primary auxiliary).outcome = .ok (decide (∀ k ∈ s.constraints,
      k.Balances s.field (wire (s.assignment primary auxiliary)))) := by
  have hmod : ∀ x ∈ s.assignment primary auxiliary, x.modulus = s.field.modulus := by
    intro x hx
    rcases List.mem_cons.mp hx with rfl | hx
    · rfl
    · exact hz x hx
  rw [isSatisfied, if_neg (not_not.mpr hp), if_neg (not_not.mpr ha)]
  apply check_within
  intro k hk
  exact Constraint.within_of_width_le (hc k hk) hmod ((s.width_le k hk).trans
    (length_assignment ha).ge)

end System

end RankOne

end ProofCarrying
