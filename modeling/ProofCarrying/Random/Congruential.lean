import ProofCarrying.Random.Generator

/-! The linear congruential generator on 64-bit words whose draws are the upper 31 bits. -/

namespace ProofCarrying

structure Congruential where
  state : UInt64
  deriving DecidableEq

namespace Congruential

def ofSeed (seed : Int) : Congruential :=
  ⟨UInt64.ofInt seed⟩

def advance (g : Congruential) : Congruential :=
  ⟨g.state * 6364136223846793005 + 1442695040888963407⟩

def draw : Action Congruential Nat :=
  fun g =>
    let g := g.advance
    (.ok (g.state.toNat >>> 33), g)

instance : Generator Congruential where
  bytes n := Action.times n do
    let x ← draw
    pure (UInt8.ofNat x)
  integer low high :=
    if high ≤ low then .fail .emptyRange
    else do
      let x ← draw
      pure (low + x % (high - low))
  integers low high k :=
    if high ≤ low then .fail .emptyRange
    else Action.times k do
      let x ← draw
      pure (low + x % (high - low))

end Congruential

end ProofCarrying
