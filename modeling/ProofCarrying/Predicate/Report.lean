import ProofCarrying.Predicate.Basic

/-! Reports on whether the shape of a predicate matches its constraint system. -/

namespace ProofCarrying

/-- A check that fails, and the numbers that disagree in it. -/
inductive Issue
  | zeroType (type : Int)
  | slotCount (given : Nat) (maxArity : Int)
  | publicInputs (declared expected : Int)
  | totalVariables (declared expected : Int)
  deriving DecidableEq

namespace Issue

def numbers : Issue → List Int
  | zeroType type => [type]
  | slotCount given maxArity => [given, maxArity]
  | publicInputs declared expected | totalVariables declared expected => [declared, expected]

def text : Issue → String
  | zeroType type => s!"predicate type {type} is zero in the field"
  | slotCount given maxArity => s!"{given} incoming payload lengths for max_arity {maxArity}"
  | publicInputs declared expected =>
    s!"constraint system declares {declared} public inputs, expected {expected}"
  | totalVariables declared expected =>
    s!"constraint system declares {declared} variables, expected {expected}"

end Issue

structure Report where
  typeNotZero : Bool
  lengthsWellSpecified : Bool
  correctNumInputs : Bool
  correctNumVariables : Bool
  issues : List Issue
  deriving DecidableEq

namespace Report

def isWellFormed (r : Report) : Bool :=
  r.typeNotZero && r.lengthsWellSpecified && r.correctNumInputs && r.correctNumVariables

/-- The issues in words, where none of them has a number of too many digits. -/
def texts (r : Report) : Except Fault (List String) :=
  if r.issues.all fun i => i.numbers.all Text.isWritable then .ok (r.issues.map Issue.text)
  else .error .tooManyDigits

end Report

namespace Predicate

variable {κ : Type} [ConstraintSystem κ]

def typeNotZero (p : Predicate κ) : Bool :=
  p.shape.type != 0 && p.field.element p.shape.type != p.field.zero

def lengthsWellSpecified (p : Predicate κ) : Bool :=
  (p.shape.incoming.length : Int) == p.shape.maxArity

def correctNumInputs (p : Predicate κ) : Bool :=
  p.shape.publicInputs == ConstraintSystem.numPublicInputs p.system

def correctNumVariables (p : Predicate κ) : Bool :=
  p.shape.totalVariables == ConstraintSystem.numTotalVariables p.system

def issueOf (passes : Bool) (issue : Issue) : List Issue :=
  if passes then [] else [issue]

def issues (p : Predicate κ) : List Issue :=
  issueOf p.typeNotZero (.zeroType p.shape.type) ++
  issueOf p.lengthsWellSpecified (.slotCount p.shape.incoming.length p.shape.maxArity) ++
  issueOf p.correctNumInputs
    (.publicInputs (ConstraintSystem.numPublicInputs p.system) p.shape.publicInputs) ++
  issueOf p.correctNumVariables
    (.totalVariables (ConstraintSystem.numTotalVariables p.system) p.shape.totalVariables)

def report (p : Predicate κ) : Report :=
  ⟨p.typeNotZero, p.lengthsWellSpecified, p.correctNumInputs, p.correctNumVariables, p.issues⟩

/-- The records that making a report leaves: one when there are issues. -/
def reportRecords (p : Predicate κ) : Except Fault (List LogRecord) := do
  match ← p.report.texts with
  | [] => return []
  | texts =>
    let list := "; ".intercalate texts
    return [⟨.predicate, debugLevel,
      s!"compliance predicate {p.shape.name} is not well formed: {list}"⟩]

def isWellFormed (p : Predicate κ) : Bool :=
  p.report.isWellFormed

/-- What a caller is told. Without words for the issues there is no answer. -/
def wellFormedness (p : Predicate κ) : Except Fault Bool := do
  let _ ← p.report.texts
  return p.isWellFormed

end Predicate

end ProofCarrying
