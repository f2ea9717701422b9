import ProofCarrying.ScalarField

/-! Sparse linear combinations of the variables of an assignment. Variable 0 is the constant
wire. -/

namespace ProofCarrying.RankOne

structure Term where
  index : Nat
  coefficient : Residue
  deriving DecidableEq

/-- The terms of a combination may come in any order and repeat an index. -/
abbrev Combination := List Term

namespace Combination

def ofTerms : List (Int × Residue) → Except Fault Combination
  | [] => .ok []
  | (i, c) :: ts =>
    if 0 ≤ i then (ofTerms ts).map (⟨i.toNat, c⟩ :: ·) else .error .negativeIndex

/-- Enters a coefficient into a map that is sorted by index. -/
def enter (i c : Int) : List (Int × Int) → List (Int × Int)
  | [] => [(i, c)]
  | (j, d) :: rest =>
    if i < j then (i, c) :: (j, d) :: rest
    else if i = j then (i, c) :: rest
    else (j, d) :: enter i c rest

/-- Integer coefficients by index, in the order of the indices. Of several coefficients for
one index the last counts. -/
def sorted (coefficients : List (Int × Int)) : List (Int × Int) :=
  coefficients.foldl (fun m e => enter e.1 e.2 m) []

def ofCoefficients (F : ScalarField) (coefficients : List (Int × Int)) :
    Except Fault Combination :=
  ofTerms ((sorted coefficients).map fun e => (e.1, F.element e.2))

/-- How many variables an assignment must have for the combination to have a value. -/
def width (l : Combination) : Nat :=
  l.foldl (fun n t => Nat.max n (t.index + 1)) 0

/-- The greatest index, or -1 when there is none. -/
def maxIndex (l : Combination) : Int :=
  l.width - 1

def accumulate (z : List Residue) : Residue → Combination → Except Fault Residue
  | total, [] => .ok total
  | total, t :: ts =>
    match z[t.index]? with
    | none => .error .missingVariable
    | some x => do
      let y ← t.coefficient.mul x
      let sum ← total.add y
      accumulate z sum ts

def evaluate (F : ScalarField) (l : Combination) (z : List Residue) : Except Fault Residue :=
  accumulate z F.zero l

end Combination

end ProofCarrying.RankOne
