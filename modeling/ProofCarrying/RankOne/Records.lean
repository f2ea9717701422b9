import ProofCarrying.RankOne.System

/-! Rank-one systems as records: the two variable counts, the number of constraints, and for
each combination the number of its terms and the terms. -/

namespace ProofCarrying.RankOne

namespace Combination

def records (l : Combination) : List Record :=
  [(l.length : Int)] :: l.map fun t => [(t.index : Int), t.coefficient.value]

end Combination

namespace Constraint

def records (k : Constraint) : List Record :=
  k.a.records ++ k.b.records ++ k.c.records

end Constraint

namespace System

def records (s : System) : List Record :=
  [(s.numPublicInputs : Int)] :: [(s.numTotalVariables : Int)] ::
    [(s.constraints.length : Int)] :: s.constraints.flatMap Constraint.records

instance : ConstraintSystem System where
  numPublicInputs s := s.numPublicInputs
  numTotalVariables s := s.numTotalVariables
  field? s := some s.field
  satisfied := isSatisfied
  records := records

end System

/-- A term is an index and a coefficient with blanks between. The coefficient is read first. -/
def readTerm (F : ScalarField) : Action Source Term := do
  let r ← Source.record "term"
  match Text.words r with
  | [index, coefficient] =>
    if Text.isDecimal index then
      match F.parse coefficient with
      | .error e => .fail (.badCoefficient e)
      | .ok c =>
        if index.length ≤ Text.digitLimit then pure ⟨Text.digitsValue index, c⟩
        else .fail (.longNumeral index.length)
    else .fail (.malformedTerm (Record.spaced [index, coefficient]))
  | ws => .fail (.malformedTerm (Record.spaced ws))

def readCombination (F : ScalarField) : Action Source Combination := do
  let n ← Source.number "num_terms"
  Action.times n (readTerm F)

def readConstraint (F : ScalarField) : Action Source Constraint := do
  let a ← readCombination F
  let b ← readCombination F
  let c ← readCombination F
  pure ⟨a, b, c⟩

def readSystem (F : ScalarField) : Action Source System := do
  let publicInputs ← Source.number "num_public_inputs"
  let total ← Source.number "num_total_variables"
  let n ← Source.number "num_constraints"
  let constraints ← Action.times n (readConstraint F)
  match mkSystem F publicInputs total constraints with
  | .ok s => pure s
  | .error e => .fail (.inconsistentSystem e)

end ProofCarrying.RankOne
