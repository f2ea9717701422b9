import ProofCarrying.Record.Source
import ProofCarrying.Record.Basic
import ProofCarrying.ScalarField
import ProofCarrying.Trace

/-! What a predicate asks of a constraint system, and the simplest systems that answer. -/

namespace ProofCarrying

/-- Both counts include the constant wire; the vectors of a query do not. -/
class ConstraintSystem (κ : Type) where
  numPublicInputs : κ → Int
  numTotalVariables : κ → Int
  field? : κ → Option ScalarField
  satisfied : κ → List Residue → List Residue → Traced Bool
  records : κ → List Record

/-- A system that declares its counts and has one verdict for all queries, each of which it
leaves in the trace. -/
structure Declared where
  numPublicInputs : Int
  numTotalVariables : Int
  verdict : Bool
  field? : Option ScalarField
  deriving DecidableEq

namespace Declared

instance : ConstraintSystem Declared where
  numPublicInputs := numPublicInputs
  numTotalVariables := numTotalVariables
  field? := field?
  satisfied d primary auxiliary := ⟨.ok d.verdict, [.query primary auxiliary]⟩
  records d := [[d.numPublicInputs], [d.numTotalVariables]]

/-- Reads the two counts; the verdict is then that of a system that holds. -/
def read : Action Source Declared := do
  let publicInputs ← Source.number "public"
  let total ← Source.number "total"
  pure ⟨publicInputs, total, true, none⟩

end Declared

instance {κ μ : Type} [ConstraintSystem κ] [ConstraintSystem μ] : ConstraintSystem (κ ⊕ μ) where
  numPublicInputs
    | .inl c => ConstraintSystem.numPublicInputs c
    | .inr c => ConstraintSystem.numPublicInputs c
  numTotalVariables
    | .inl c => ConstraintSystem.numTotalVariables c
    | .inr c => ConstraintSystem.numTotalVariables c
  field?
    | .inl c => ConstraintSystem.field? c
    | .inr c => ConstraintSystem.field? c
  satisfied
    | .inl c => ConstraintSystem.satisfied c
    | .inr c => ConstraintSystem.satisfied c
  records
    | .inl c => ConstraintSystem.records c
    | .inr c => ConstraintSystem.records c

end ProofCarrying
