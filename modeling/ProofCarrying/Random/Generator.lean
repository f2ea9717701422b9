import ProofCarrying.Action
import ProofCarrying.ScalarField

/-! Sources of random numbers, and the elements drawn from them. -/

namespace ProofCarrying

/-- A source of bytes and of integers from a half-open range. -/
class Generator (γ : Type) where
  bytes : Nat → Action γ (List UInt8)
  integer : Int → Int → Action γ Int
  integers : Int → Int → Nat → Action γ (List Int)

/-- A generator that gives the bytes it is asked for, and integers from a range of `R` that is not
empty. Nothing is said about chance or about other ranges. -/
structure Generator.Lawful (γ : Type) [Generator γ] (R : Int → Int → Prop) : Prop where
  bytes_length : ∀ (n : Nat) (g : γ), ∃ bs h, Generator.bytes n g = (.ok bs, h) ∧ bs.length = n
  integer_mem : ∀ (low high : Int) (g : γ), R low high → low < high →
    ∃ n h, Generator.integer low high g = (.ok n, h) ∧ low ≤ n ∧ n < high
  integers_mem : ∀ (low high : Int) (k : Nat) (g : γ), R low high → low < high →
    ∃ ns h, Generator.integers low high k g = (.ok ns, h) ∧ ns.length = k ∧
      ∀ n ∈ ns, low ≤ n ∧ n < high

/-- The number that bytes denote, the most significant first. -/
def bigEndian (bytes : List UInt8) : Nat :=
  bytes.foldl (fun n b => 256 * n + b.toNat) 0

namespace ScalarField

/-- Eight bytes more than the modulus needs, so that no residue is favoured noticeably. -/
def drawBytes (F : ScalarField) : Nat :=
  (F.modulus.log2 + 1 + 7) / 8 + 8

variable {γ : Type} [Generator γ]

def randomElement (F : ScalarField) : Action γ Residue := do
  let bytes ← Generator.bytes F.drawBytes
  pure (F.element (bigEndian bytes))

/-- Draws a number of elements, none if the number is negative. -/
def randomElements (F : ScalarField) (n : Int) : Action γ (List Residue) :=
  Action.times n.toNat F.randomElement

end ScalarField

end ProofCarrying
