import ProofCarrying.Fault

/-! The integers modulo a number other than zero. A residue is the remainder of division
rounded down, so it has the sign of its modulus. -/

namespace ProofCarrying

structure Residue where
  modulus : Int
  value : Int
  modulus_ne_zero : modulus ≠ 0
  value_fmod : value.fmod modulus = value
  deriving DecidableEq

namespace Residue

def reduce (n m : Int) (h : m ≠ 0) : Residue :=
  ⟨m, n.fmod m, h, Int.fmod_fmod n m⟩

/-- The residue of an integer, where the modulus may turn out to be zero. -/
def ofInt (n m : Int) : Except Fault Residue :=
  if h : m = 0 then .error .zeroModulus else .ok (reduce n m h)

def lift (x : Residue) (n : Int) : Residue :=
  reduce n x.modulus x.modulus_ne_zero

/-- Applies an operation of the integers to two residues of one modulus. -/
def combine (op : Int → Int → Int) (x y : Residue) : Except Fault Residue :=
  if x.modulus = y.modulus then .ok (x.lift (op x.value y.value))
  else .error (.mixedModuli x.modulus y.modulus)

def add : Residue → Residue → Except Fault Residue :=
  combine (· + ·)

def sub : Residue → Residue → Except Fault Residue :=
  combine (· - ·)

def mul : Residue → Residue → Except Fault Residue :=
  combine (· * ·)

def neg (x : Residue) : Residue :=
  x.lift (-x.value)

/-- Cofactors of the greatest common divisor: `cofactors a b = (s, t)` has
`s * a + t * b = gcd a b`. -/
def cofactors : Nat → Nat → Int × Int
  | _, 0 => (1, 0)
  | a, b + 1 =>
    let (s, t) := cofactors (b + 1) (a % (b + 1))
    (t, s - (a / (b + 1) : Nat) * t)
termination_by _ b => b
decreasing_by exact Nat.mod_lt _ (Nat.succ_pos b)

/-- The residue by which `x` has to be multiplied to give one. -/
def inverse (x : Residue) : Except Fault Residue :=
  if x.value = 0 then .error .zeroInverse
  else if Int.gcd x.value x.modulus = 1 then
    .ok (x.lift (x.value.sign * (cofactors x.value.natAbs x.modulus.natAbs).1))
  else .error .notInvertible

def div (x y : Residue) : Except Fault Residue :=
  if x.modulus = y.modulus then
    match y.inverse with
    | .ok z => x.mul z
    | .error e => .error e
  else .error (.mixedModuli x.modulus y.modulus)

def describe (x : Residue) : String :=
  s!"{x.value} (mod {x.modulus})"

@[ext]
theorem ext {x y : Residue} (hm : x.modulus = y.modulus) (hv : x.value = y.value) : x = y := by
  cases x
  cases y
  simp_all

end Residue

end ProofCarrying
