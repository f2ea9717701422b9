import ProofCarrying.Residue

/-! What a check leaves behind besides its verdict: log records, and the vectors that a
constraint system was asked about. -/

namespace ProofCarrying

/-- The part of the library that a record comes from, or the name of any other logger. -/
inductive LogSource
  | constraintSystem
  | predicate
  | messages
  | named (name : String)
  deriving DecidableEq

structure LogRecord where
  source : LogSource
  level : Int
  text : String
  deriving DecidableEq

def debugLevel : Int := 10

inductive Event
  | log (record : LogRecord)
  | query (primary auxiliary : List Residue)
  deriving DecidableEq

structure Traced (α : Type) where
  outcome : Except Fault α
  events : List Event

namespace Traced

variable {α : Type}

/-- A result that leaves nothing behind. -/
def silent (r : Except Fault α) : Traced α :=
  ⟨r, []⟩

end Traced

end ProofCarrying
