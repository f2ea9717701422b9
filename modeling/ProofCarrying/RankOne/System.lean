import ProofCarrying.ConstraintSystem
import ProofCarrying.RankOne.Combination

/-! Systems of constraints that say of an assignment that the product of two combinations is a
third. The assignment begins with the constant one, which both counts include. -/

namespace ProofCarrying.RankOne

structure Constraint where
  a : Combination
  b : Combination
  c : Combination
  deriving DecidableEq

namespace Constraint

def ofCoefficients (F : ScalarField) (a b c : List (Int × Int)) : Except Fault Constraint := do
  let a ← Combination.ofCoefficients F a
  let b ← Combination.ofCoefficients F b
  let c ← Combination.ofCoefficients F c
  return ⟨a, b, c⟩

def width (k : Constraint) : Nat :=
  Nat.max k.a.width (Nat.max k.b.width k.c.width)

def maxIndex (k : Constraint) : Int :=
  k.width - 1

def holds (F : ScalarField) (k : Constraint) (z : List Residue) : Except Fault Bool := do
  let a ← k.a.evaluate F z
  let b ← k.b.evaluate F z
  let product ← a.mul b
  let c ← k.c.evaluate F z
  return product == c

end Constraint

/-- A system declares no fewer variables than public inputs, counts the constant wire among
both, and refers to declared variables only. -/
structure System where
  field : ScalarField
  numPublicInputs : Nat
  numTotalVariables : Nat
  constraints : List Constraint
  one_le : 1 ≤ numPublicInputs
  public_le : numPublicInputs ≤ numTotalVariables
  width_le : ∀ k ∈ constraints, k.width ≤ numTotalVariables
  deriving DecidableEq

namespace System

/-- The first constraint that refers to a variable that is not declared. -/
def stray? (total : Nat) : Nat → List Constraint → Option Fault
  | _, [] => none
  | position, k :: ks =>
    if k.width ≤ total then stray? total (position + 1) ks
    else some (.strayVariable position k.maxIndex total)

theorem width_le_of_stray? {total position : Nat} {ks : List Constraint}
    (h : stray? total position ks = none) : ∀ k ∈ ks, k.width ≤ total := by
  induction ks generalizing position with
  | nil => simp
  | cons k ks ih =>
    rw [stray?] at h
    split at h
    next hk => simpa [hk] using ih h
    next => simp at h

theorem stray?_of_width_le {total position : Nat} {ks : List Constraint}
    (h : ∀ k ∈ ks, k.width ≤ total) : stray? total position ks = none := by
  induction ks generalizing position with
  | nil => rfl
  | cons k ks ih =>
    rw [stray?, if_pos (h k (by simp))]
    exact ih fun j hj => h j (by simp [hj])

def unsatisfied (position total : Nat) : LogRecord :=
  ⟨.constraintSystem, debugLevel, s!"constraint {position} of {total} is not satisfied"⟩

/-- Checks constraints in order, up to the first that does not hold. -/
def check (F : ScalarField) (z : List Residue) (total : Nat) :
    Nat → List Constraint → Traced Bool
  | _, [] => .silent (.ok true)
  | position, k :: ks =>
    match k.holds F z with
    | .error e => .silent (.error e)
    | .ok true => check F z total (position + 1) ks
    | .ok false => ⟨.ok false, [.log (unsatisfied position total)]⟩

/-- The constant one, then the public and the private variables. -/
def assignment (s : System) (primary auxiliary : List Residue) : List Residue :=
  s.field.one :: (primary ++ auxiliary)

def isSatisfied (s : System) (primary auxiliary : List Residue) : Traced Bool :=
  if primary.length + 1 ≠ s.numPublicInputs then
    .silent (.error (.primaryLength primary.length (s.numPublicInputs - 1)))
  else if primary.length + auxiliary.length + 1 ≠ s.numTotalVariables then
    .silent (.error (.auxiliaryLength auxiliary.length
      (s.numTotalVariables - s.numPublicInputs)))
  else
    check s.field (s.assignment primary auxiliary) s.constraints.length 0 s.constraints

end System

/-- A system from its parts, of which the counts are checked first. -/
def mkSystem (field : ScalarField) (numPublicInputs numTotalVariables : Int)
    (constraints : List Constraint) : Except Fault System :=
  if h₁ : 1 ≤ numPublicInputs then
    if h₂ : numPublicInputs ≤ numTotalVariables then
      match h₃ : System.stray? numTotalVariables.toNat 0 constraints with
      | none =>
        .ok ⟨field, numPublicInputs.toNat, numTotalVariables.toNat, constraints, by omega,
          by omega, System.width_le_of_stray? h₃⟩
      | some f => .error f
    else .error .fewerVariables
  else .error .noConstantWire

theorem mkSystem_eq_ok_iff {field : ScalarField} {numPublicInputs numTotalVariables : Int}
    {constraints : List Constraint} {s : System} :
    mkSystem field numPublicInputs numTotalVariables constraints = .ok s ↔
      s.field = field ∧ (s.numPublicInputs : Int) = numPublicInputs ∧
        (s.numTotalVariables : Int) = numTotalVariables ∧ s.constraints = constraints := by
  constructor
  · intro h
    rw [mkSystem] at h
    split at h
    next h₁ =>
      split at h
      next h₂ =>
        split at h
        · cases h
          exact ⟨rfl, Int.toNat_of_nonneg (by omega), Int.toNat_of_nonneg (by omega), rfl⟩
        · cases h
      next => cases h
    next => cases h
  · obtain ⟨F, n, m, ks, h₁, h₂, hw⟩ := s
    rintro ⟨rfl, rfl, rfl, rfl⟩
    have hn : (1 : Int) ≤ n := by omega
    have hm : (n : Int) ≤ m := by omega
    have hs : System.stray? (m : Int).toNat 0 ks = none := System.stray?_of_width_le hw
    rw [mkSystem, dif_pos hn, dif_pos hm]
    split
    · rfl
    next h => exact absurd (hs.symm.trans h) (by simp)

end ProofCarrying.RankOne
