import ProofCarrying.Predicate.Report
import ProofCarrying.Proofs.DotProduct

/-! Whether a predicate is well formed, once its counts agree with those of its system: the type
alone decides then. -/

namespace ProofCarrying

namespace Predicate

variable {κ : Type} [ConstraintSystem κ] {p : Predicate κ}

omit [ConstraintSystem κ] in
theorem typeNotZero_iff : p.typeNotZero = true ↔ ¬ (p.field.modulus : Int) ∣ p.shape.type := by
  rw [typeNotZero, Bool.and_eq_true, bne_iff_ne, bne_iff_ne, ne_eq, ne_eq,
    ScalarField.element_eq_zero_iff]
  constructor
  · exact And.right
  · intro h
    exact ⟨fun h0 => h (h0 ▸ dvd_zero _), h⟩

section

variable (hl : p.lengthsWellSpecified = true) (hi : p.correctNumInputs = true)
  (hv : p.correctNumVariables = true)

include hl hi hv

theorem isWellFormed_eq : p.isWellFormed = p.typeNotZero := by
  simp only [isWellFormed, Report.isWellFormed, report, hl, hi, hv, Bool.and_true]

theorem texts_eq : p.report.texts = if p.typeNotZero then .ok [] else
    if Text.isWritable p.shape.type then .ok [(Issue.zeroType p.shape.type).text]
    else .error .tooManyDigits := by
  simp only [Report.texts, report, issues, issueOf, hl, hi, hv, if_true, List.append_nil]
  cases p.typeNotZero <;> simp [Issue.numbers]

/-- With all counts right the type alone decides, and there is no answer where it is zero in the
field and too long to be named. -/
theorem wellFormedness_eq : p.wellFormedness =
    if (p.field.modulus : Int) ∣ p.shape.type then
      if Text.isWritable p.shape.type then .ok false else .error .tooManyDigits
    else .ok true := by
  rw [wellFormedness, texts_eq hl hi hv, isWellFormed_eq hl hi hv]
  cases ht : p.typeNotZero with
  | true =>
    rw [if_neg (typeNotZero_iff.mp ht)]
    rfl
  | false =>
    have hd : (p.field.modulus : Int) ∣ p.shape.type := by
      by_contra h
      rw [typeNotZero_iff.mpr h] at ht
      cases ht
    rw [if_pos hd]
    cases Text.isWritable p.shape.type <;> rfl

theorem reportRecords_eq_nil (h : ¬ (p.field.modulus : Int) ∣ p.shape.type) :
    p.reportRecords = .ok [] := by
  rw [reportRecords, texts_eq hl hi hv, if_pos (typeNotZero_iff.mpr h)]
  rfl

end

end Predicate

end ProofCarrying
