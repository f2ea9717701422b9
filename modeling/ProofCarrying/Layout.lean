import ProofCarrying.Message

/-! The vectors that a constraint system sees of a node's messages and private inputs.

The primary vector is the outgoing payload. The auxiliary vector is the number of incoming
messages, then a block for each slot, then the local data, then the witness. A block is the
type of the slot's message and its payload, or zeros where no message came in. -/

namespace ProofCarrying

/-- What a node brings to a check. -/
structure Inputs where
  incoming : List Message
  localData : List Residue
  witness : List Residue
  deriving DecidableEq

namespace Layout

def primary (outgoing : Message) (length : Int) : Except Fault (List Residue) :=
  if (outgoing.payload.length : Int) = length then .ok outgoing.payload
  else .error (.outgoingLength outgoing.payload.length length)

def emptyBlock (F : ScalarField) (length : Int) : List Residue :=
  List.replicate (1 + length).toNat F.zero

def blocks (F : ScalarField) : Nat → List Int → List Message → Except Fault (List Residue)
  | _, [], _ => .ok []
  | slot, l :: ls, [] => do
    let rest ← blocks F (slot + 1) ls []
    return emptyBlock F l ++ rest
  | slot, l :: ls, m :: ms =>
    if (m.payload.length : Int) = l then do
      let rest ← blocks F (slot + 1) ls ms
      return m.assignment F ++ rest
    else .error (.incomingLength slot m.payload.length l)

def auxiliary (F : ScalarField) (lengths : List Int) (localData witness : Int)
    (inputs : Inputs) : Except Fault (List Residue) :=
  if lengths.length < inputs.incoming.length then
    .error (.tooManyMessages inputs.incoming.length lengths.length)
  else do
    let slots ← blocks F 0 lengths inputs.incoming
    if (inputs.localData.length : Int) ≠ localData then
      .error (.localDataLength inputs.localData.length localData)
    else if (inputs.witness.length : Int) ≠ witness then
      .error (.witnessLength inputs.witness.length witness)
    else
      return F.element inputs.incoming.length :: slots ++ inputs.localData ++ inputs.witness

def payloadTotal : List Int → Int
  | [] => 0
  | l :: ls => l + payloadTotal ls

def auxiliaryLength (lengths : List Int) (localData witness : Int) : Int :=
  1 + lengths.length + payloadTotal lengths + localData + witness

end Layout

end ProofCarrying
