import ProofCarrying.Residue
import ProofCarrying.Text.Numeral

/-! Prime fields given by their modulus, with the text form of their elements. That the
modulus is prime is not checked. -/

namespace ProofCarrying

structure ScalarField where
  modulus : Nat
  two_le : 2 ≤ modulus
  deriving DecidableEq

namespace ScalarField

def ofInt (m : Int) : Except Fault ScalarField :=
  if h : 2 ≤ m then .ok ⟨m.toNat, by omega⟩ else .error .smallModulus

/-- The scalar field of the pairing-friendly curve BN254. -/
def bn254 : ScalarField :=
  ⟨0x30644E72E131A029B85045B68181585D2833E84879B9709143E1F593F0000001, by decide⟩

theorem modulus_ne_zero (F : ScalarField) : (F.modulus : Int) ≠ 0 := by
  have := F.two_le
  omega

def element (F : ScalarField) (n : Int) : Residue :=
  Residue.reduce n F.modulus F.modulus_ne_zero

def elements (F : ScalarField) (ns : List Int) : List Residue :=
  ns.map F.element

def zero (F : ScalarField) : Residue :=
  F.element 0

def one (F : ScalarField) : Residue :=
  F.element 1

/-- Reads a residue in decimal; blanks around it do not count. -/
def parse (F : ScalarField) (text : List Char) : Except Fault Residue :=
  let stripped := Text.trim text
  match Text.integer? stripped with
  | none => .error (.invalidElement stripped)
  | some n =>
    if 0 ≤ n ∧ n < F.modulus then .ok (F.element n)
    else .error (.elementOutOfRange n F.modulus)

/-- An element in decimal. The modulus is not written. -/
def format (x : Residue) : Except Fault (List Char) :=
  match Text.integerText? x.value with
  | some t => .ok t
  | none => .error .tooManyDigits

@[simp] theorem modulus_element (F : ScalarField) (n : Int) :
    (F.element n).modulus = F.modulus := rfl

@[simp] theorem value_element (F : ScalarField) (n : Int) :
    (F.element n).value = n.fmod F.modulus := rfl

end ScalarField

end ProofCarrying
