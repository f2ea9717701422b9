import ProofCarrying.Predicate.Basic
import ProofCarrying.RankOne.Records

/-! The tally: every node adds a summand of its own, and forwards the sum of all summands so
far and the number of nodes they came from.

The wires are the constant one, the outgoing sum and count, the arity, the type, sum and
count of each slot, and the summand. Slots without a message are zero, so sums need not depend
on the arity. -/

namespace ProofCarrying.Tally

open RankOne

/-- The type of tally messages unless another is chosen. -/
def standardType : Int := 1

def payloadLength : Nat := 2

def oneWire : Int := 0

def sumWire : Int := 1

def countWire : Int := 2

def arityWire : Int := 3

def slotType (slot : Nat) : Int := 4 + 3 * slot

def slotSum (slot : Nat) : Int := 5 + 3 * slot

def slotCount (slot : Nat) : Int := 6 + 3 * slot

def summandWire (maxArity : Int) : Int := 4 + 3 * maxArity

/-- The coefficient one for a wire of each slot. -/
def ones (slots : Nat) (wire : Nat → Int) : List (Int × Int) :=
  (List.range slots).map fun slot => (wire slot, 1)

/-- The summand and the incoming sums make up the outgoing sum. -/
def sumRow (F : ScalarField) (maxArity : Int) : Except Fault Constraint :=
  Constraint.ofCoefficients F ((summandWire maxArity, 1) :: ones maxArity.toNat slotSum)
    [(oneWire, 1)] [(sumWire, 1)]

/-- One and the incoming counts make up the outgoing count. -/
def countRow (F : ScalarField) (maxArity : Int) : Except Fault Constraint :=
  Constraint.ofCoefficients F ((oneWire, 1) :: ones maxArity.toNat slotCount)
    [(oneWire, 1)] [(countWire, 1)]

/-- The type of a slot is that of the predicate or zero. -/
def typeRow (F : ScalarField) (type : Int) (slot : Nat) : Except Fault Constraint :=
  Constraint.ofCoefficients F [(slotType slot, 1)] [(slotType slot, 1), (oneWire, -type)] []

/-- The types add up to the type of the predicate as often as messages come in. -/
def arityRow (F : ScalarField) (maxArity type : Int) : Except Fault Constraint :=
  Constraint.ofCoefficients F [(arityWire, type)] [(oneWire, 1)] (ones maxArity.toNat slotType)

def typeRows (F : ScalarField) (type : Int) : List Nat → Except Fault (List Constraint)
  | [] => .ok []
  | slot :: slots => do
    let row ← typeRow F type slot
    let rows ← typeRows F type slots
    return row :: rows

def system (F : ScalarField) (maxArity type : Int) : Except Fault System := do
  let sum ← sumRow F maxArity
  let count ← countRow F maxArity
  let types ← typeRows F type (List.range maxArity.toNat)
  let arity ← arityRow F maxArity type
  mkSystem F (1 + payloadLength) (summandWire maxArity + 1)
    (sum :: count :: types ++ [arity])

/-- The shape of a tally: every payload is a sum and a count, and the local data is a
summand. -/
def shape (maxArity type name : Int) : Shape where
  name := name
  type := type
  outgoing := payloadLength
  maxArity := maxArity
  incoming := List.replicate maxArity.toNat (payloadLength : Int)
  localData := 1
  witness := 0

def predicate (F : ScalarField) (maxArity type name : Int) :
    Except Fault (Predicate System) :=
  if type = 0 ∨ F.element type = F.zero then .error .zeroTallyType
  else do
    let s ← system F maxArity type
    Predicate.ofShape (shape maxArity type name) s true none

def message (F : ScalarField) (total count type : Int) : Except Fault Message :=
  Message.ofInt type [F.element total, F.element count]

def localData (F : ScalarField) (summand : Int) : List Residue :=
  [F.element summand]

def witness : List Residue :=
  []

/-- Adds the sums and the counts of messages to a sum and a count. -/
def totals : Residue → Residue → List Message → Except Fault (Residue × Residue)
  | sum, count, [] => .ok (sum, count)
  | sum, count, m :: ms =>
    match m.payload with
    | [] => .error .missingPayloadEntry
    | [s] => do
      let _ ← sum.add s
      .error .missingPayloadEntry
    | s :: c :: _ => do
      let sum ← sum.add s
      let count ← count.add c
      totals sum count ms

def outgoing (F : ScalarField) (incoming : List Message) (summand type : Int) :
    Except Fault Message := do
  let (sum, count) ← totals (F.element summand) F.one incoming
  Message.ofInt type [sum, count]

end ProofCarrying.Tally
