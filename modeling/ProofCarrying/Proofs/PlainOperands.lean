import ProofCarrying.Proofs.Operations

/-! Which plain values combine with an element. Integers and truth values do, and nothing else does
with one exception: from a floating-point number an element can be subtracted. -/

namespace ProofCarrying

namespace Binary64

/-- Neither infinite nor without a value. -/
def IsFinite (v : Binary64) : Prop :=
  ∃ s m e, v = finite s m e

theorem truncated_eq_ok_iff {v : Binary64} : (∃ n, v.truncated = .ok n) ↔ v.IsFinite := by
  cases v <;> simp [truncated, IsFinite]

theorem kind_told_truncated {v : Binary64} {f : Fault} (h : v.truncated = .error f) :
    f.told.kind = .value ∨ f.told.kind = .overflow := by
  cases v with
  | nan =>
    cases h
    exact Or.inl rfl
  | infinite s =>
    cases h
    exact Or.inr rfl
  | finite s m e => cases h

theorem kind_told_nearest {n : Int} {f : Fault} (h : nearest n = .error f) :
    f.told.kind = .overflow := by
  rw [nearest] at h
  split at h
  · cases h
    rfl
  · cases h

end Binary64

namespace Operand

/-- There is no such operation between an element and what stands beside it. -/
def Refused (outcome : Except Fault Residue) : Prop :=
  ∃ f, outcome = .error f ∧ f.told.kind = .operand

theorem not_refused_ok (x : Residue) : ¬ Refused (.ok x) := by
  rintro ⟨f, h, -⟩
  cases h

theorem refused_error_iff {f : Fault} : Refused (.error f) ↔ f.told.kind = .operand := by
  constructor
  · rintro ⟨g, h, hg⟩
    cases h
    exact hg
  · intro h
    exact ⟨f, rfl, h⟩

theorem not_refused_of_kind {f : Fault} (h : f.kind ≠ .operand) : ¬ Refused (.error f) := by
  intro hr
  have hk := (Fault.kind_told_eq_iff (by decide)).mp (refused_error_iff.mp hr)
  exact h hk.1

/-- Two elements are operands of one another, if not of one modulus. -/
theorem not_refused_combine (f : Int → Int → Int) (x y : Residue) :
    ¬ Refused (Residue.combine f x y) := by
  by_cases h : x.modulus = y.modulus
  · rw [Residue.combine_of_eq f h]
    exact not_refused_ok _
  · rw [Residue.combine_of_ne f h]
    exact not_refused_of_kind (by simp [Fault.kind])

theorem not_refused_div (x y : Residue) : ¬ Refused (x.div y) := by
  by_cases h : x.modulus = y.modulus
  · rw [Residue.div, if_pos h]
    cases hy : y.inverse with
    | ok z => exact not_refused_combine _ x z
    | error f =>
      rw [Residue.inverse] at hy
      split at hy
      · cases hy
        exact not_refused_of_kind (by decide)
      · split at hy
        · cases hy
        · cases hy
          exact not_refused_of_kind (by decide)
  · rw [Residue.div_of_ne h]
    exact not_refused_of_kind (by simp [Fault.kind])

section

variable {op : Residue → Residue → Except Fault Residue} (hop : ∀ x y, ¬ Refused (op x y))
  (x : Residue) (d : Datum)

include hop

theorem refused_lifted_right : Refused (lifted op (element x) (raw d)) ↔ d.toInt? = none := by
  cases h : d.toInt? with
  | some n =>
    rw [lifted_raw_right op x h]
    simp [hop]
  | none =>
    simp only [lifted, h, iff_true]
    exact ⟨.notOperand, rfl, rfl⟩

theorem refused_lifted_left : Refused (lifted op (raw d) (element x)) ↔ d.toInt? = none := by
  cases h : d.toInt? with
  | some n =>
    rw [lifted_raw_left op x h]
    simp [hop]
  | none =>
    simp only [lifted, h, iff_true]
    exact ⟨.notOperand, rfl, rfl⟩

end

theorem sub_float (v : Binary64) (x : Residue) : sub (raw (.float v)) (element x) =
    Binary64.nearest x.value >>= fun w => (v.sub w).truncated >>= fun n => .ok (x.lift n) :=
  rfl

/-- What becomes of a floating-point number from which an element is subtracted. -/
structure FloatDifference (v : Binary64) (x : Residue) (outcome : Except Fault Residue) : Prop where
  ok_iff : (∃ y, outcome = .ok y) ↔ ∃ w, Binary64.nearest x.value = .ok w ∧ (v.sub w).IsFinite
  modulus : ∀ y, outcome = .ok y → y.modulus = x.modulus
  fault : ∀ f, outcome = .error f → f.told.kind = .value ∨ f.told.kind = .overflow

theorem floatDifference_sub (v : Binary64) (x : Residue) :
    FloatDifference v x (sub (raw (.float v)) (element x)) := by
  rw [sub_float]
  cases hw : Binary64.nearest x.value with
  | error f =>
    refine ⟨by simp [bind, Except.bind, hw], by simp [bind, Except.bind], ?_⟩
    rintro g h
    cases h
    exact Or.inr (Binary64.kind_told_nearest hw)
  | ok w =>
    have hfinite := @Binary64.truncated_eq_ok_iff (v.sub w)
    cases ht : (v.sub w).truncated with
    | error f =>
      have hn : ¬ (v.sub w).IsFinite := by simp [← hfinite, ht]
      refine ⟨by simp [bind, Except.bind, hw, ht, hn], by simp [bind, Except.bind, ht], ?_⟩
      rintro g h
      simp only [bind, Except.bind, ht, Except.error.injEq] at h
      exact h ▸ Binary64.kind_told_truncated ht
    | ok n =>
      have hy : (v.sub w).IsFinite := hfinite.mp ⟨n, ht⟩
      refine ⟨by simp [bind, Except.bind, hw, ht, hy], ?_, by simp [bind, Except.bind, ht]⟩
      rintro y h
      simp only [bind, Except.bind, ht, Except.ok.injEq] at h
      exact h ▸ rfl

theorem refused_sub_left (x : Residue) (d : Datum) :
    Refused (sub (raw d) (element x)) ↔ d.toInt? = none ∧ ∀ v, d ≠ .float v := by
  by_cases hd : ∃ v, d = .float v
  · obtain ⟨v, rfl⟩ := hd
    have hn : ¬ Refused (sub (raw (.float v)) (element x)) := by
      rintro ⟨f, hf, hk⟩
      rcases (floatDifference_sub v x).fault f hf with h | h
      · rw [hk] at h
        cases h
      · rw [hk] at h
        cases h
    simp [hn]
  · have hne : ∀ v, d ≠ .float v := fun v h => hd ⟨v, h⟩
    have hop : ∀ y z, ¬ Refused (Residue.sub y z) := not_refused_combine _
    rw [sub_eq_lifted hne, refused_lifted_left hop x d, and_iff_left hne]

/-- A plain value is refused beside an element exactly if it is neither an integer nor a truth
value, in each operation and on either side. Only a floating-point number on the left of a
difference is taken: an element comes out where the difference is a finite number. -/
theorem refused_operands (x : Residue) (d : Datum) :
    (∀ op ∈ [add, sub, mul, div], Refused (op (element x) (raw d)) ↔ d.toInt? = none) ∧
    (∀ op ∈ [add, mul, div], Refused (op (raw d) (element x)) ↔ d.toInt? = none) ∧
    (Refused (sub (raw d) (element x)) ↔ d.toInt? = none ∧ ∀ v, d ≠ .float v) ∧
    ∀ v, d = .float v → FloatDifference v x (sub (raw d) (element x)) := by
  have hadd := not_refused_combine (· + ·)
  have hsub := not_refused_combine (· - ·)
  have hmul := not_refused_combine (· * ·)
  refine ⟨?_, ?_, refused_sub_left x d, ?_⟩
  · simpa using ⟨refused_lifted_right hadd x d, refused_lifted_right hsub x d,
      refused_lifted_right hmul x d, refused_lifted_right not_refused_div x d⟩
  · simpa using ⟨refused_lifted_left hadd x d, refused_lifted_left hmul x d,
      refused_lifted_left not_refused_div x d⟩
  · rintro v rfl
    exact floatDifference_sub v x

/-- The class of three modulo seven is not multiplied with an empty list nor subtracted from it, but
from seven and a half it can be subtracted. -/
theorem refused_operands_modulo_seven :
    ∃ x : Residue, Residue.ofInt 3 7 = .ok x ∧ Refused (mul (element x) (raw (.list []))) ∧
      Refused (mul (raw (.list [])) (element x)) ∧ Refused (sub (raw (.list [])) (element x)) ∧
      ∃ y, sub (raw (.float (.finite false (15 * 2 ^ 49) (-50)))) (element x) = .ok y ∧
        y.modulus = 7 := by
  let x : Residue := .reduce 3 7 (by decide)
  have hthree : Binary64.nearest x.value = .ok (.finite false (3 * 2 ^ 51) (-51)) := by
    decide +kernel
  obtain ⟨hright, hleft, hsub, -⟩ := refused_operands x (.list [])
  obtain ⟨-, -, -, hfloat⟩ := refused_operands x (.float (.finite false (15 * 2 ^ 49) (-50)))
  have hd := hfloat _ rfl
  obtain ⟨y, hy⟩ := hd.ok_iff.mpr ⟨_, hthree, false, 9 * 2 ^ 49, -50, by decide +kernel⟩
  exact ⟨x, rfl, (hright mul (by simp)).mpr rfl, (hleft mul (by simp)).mpr rfl,
    hsub.mpr ⟨rfl, by simp⟩, y, hy, hd.modulus y hy⟩

/-- Seven and a half less the class of three modulo seven is the class of four. -/
theorem element_of_float_less_element :
    ∃ (x : Residue) (d : Datum), Residue.ofInt 3 7 = .ok x ∧
      d = .float (.finite false (15 * 2 ^ 49) (-50)) ∧ d.toInt? = none ∧
      sub (raw d) (element x) = Residue.ofInt 4 7 := by
  refine ⟨.reduce 3 7 (by decide), .float (.finite false (15 * 2 ^ 49) (-50)), rfl, rfl, rfl, ?_⟩
  decide +kernel

end Operand

end ProofCarrying
