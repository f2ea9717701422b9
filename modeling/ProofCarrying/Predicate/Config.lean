import ProofCarrying.Config.File
import ProofCarrying.Predicate.ShapeConfig

/-! Predicates from configuration files. -/

namespace ProofCarrying.Predicate

variable {κ : Type} [ConstraintSystem κ]

def ofConfigFile (tree : FileTree) (path : Path) (system : κ) (field? : Option ScalarField) :
    Except Fault (Predicate κ) := do
  let s ← Config.load tree path
  ofConfig s system field?

end ProofCarrying.Predicate
