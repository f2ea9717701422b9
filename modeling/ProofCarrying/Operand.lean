import ProofCarrying.Datum
import ProofCarrying.ScalarField
import ProofCarrying.Number.Reading

/-! Arithmetic between residues and plain values. Integers and truth values are lifted to the
modulus of the residue beside them. -/

namespace ProofCarrying

namespace Datum

/-- The integer that a value is, not merely denotes. -/
def toInt? : Datum → Option Int
  | boolean b => some b.toInt
  | integer n => some n
  | _ => none

end Datum

namespace Binary64

/-- The integer next to a number in the direction of zero. -/
def truncated : Binary64 → Except Fault Int
  | nan => .error .notNumber
  | infinite _ => .error .outOfRange
  | finite s m e => .ok (truncate s m e)

/-- The number nearest to an integer, which has to lie within range. -/
def nearest (n : Int) : Except Fault Binary64 :=
  match ofInt n with
  | infinite _ => .error .outOfRange
  | x => .ok x

end Binary64

namespace ScalarField

/-- Lifts any value that converts to an integer: numbers lose their fraction, and texts are
read. -/
def liftDatum (F : ScalarField) : Datum → Except Fault Residue
  | .boolean b => .ok (F.element b.toInt)
  | .integer n => .ok (F.element n)
  | .float x => x.truncated.map F.element
  | .text s =>
    match s.toChars?.bind Text.looseInteger? with
    | some n => .ok (F.element n)
    | none => .error .notInteger
  | .bytes b =>
    match Text.looseInteger? (b.map fun x => Char.ofNat x.toNat) with
    | some n => if b.all (· < 128) then .ok (F.element n) else .error .notInteger
    | none => .error .notInteger
  | _ => .error .notOperand

end ScalarField

inductive Operand
  | element (x : Residue)
  | raw (d : Datum)

namespace Operand

/-- Applies an operation once both sides are residues of one modulus. -/
def lifted (op : Residue → Residue → Except Fault Residue) :
    Operand → Operand → Except Fault Residue
  | element x, element y => op x y
  | element x, raw d =>
    match d.toInt? with
    | some n => op x (x.lift n)
    | none => .error .notOperand
  | raw d, element y =>
    match d.toInt? with
    | some n => op (y.lift n) y
    | none => .error .notOperand
  | raw _, raw _ => .error .notOperand

def add : Operand → Operand → Except Fault Residue :=
  lifted Residue.add

def mul : Operand → Operand → Except Fault Residue :=
  lifted Residue.mul

def div : Operand → Operand → Except Fault Residue :=
  lifted Residue.div

/-- Subtraction. A floating-point number on the left is subtracted from as such, and the
difference then loses its fraction. -/
def sub : Operand → Operand → Except Fault Residue
  | raw (.float x), element y => do
    let v ← Binary64.nearest y.value
    let n ← (x.sub v).truncated
    return y.lift n
  | a, b => lifted Residue.sub a b

/-- An element is equal to an element only. -/
def same : Operand → Operand → Bool
  | element x, element y => x == y
  | _, _ => false

end Operand

end ProofCarrying
