import ProofCarrying.ScalarField
import ProofCarrying.Trace

/-! Messages between the nodes of a computation: a type and a payload. -/

namespace ProofCarrying

structure Message where
  type : Nat
  payload : List Residue
  deriving DecidableEq

namespace Message

def ofInt (type : Int) (payload : List Residue) : Except Fault Message :=
  if 0 ≤ type then .ok ⟨type.toNat, payload⟩ else .error .negativeMessageType

def ofPayloads (F : ScalarField) (type : Int) :
    List (List Int) → Except Fault (List Message)
  | [] => .ok []
  | p :: ps => do
    let m ← ofInt type (F.elements p)
    let ms ← ofPayloads F type ps
    return m :: ms

/-- The type as an element, then the payload. -/
def assignment (F : ScalarField) (m : Message) : List Residue :=
  F.element m.type :: m.payload

def payloadText : List Residue → Except Fault (List (List Char))
  | [] => .ok []
  | x :: xs => do
    let t ← ScalarField.format x
    let ts ← payloadText xs
    return t :: ts

def describe (m : Message) : Except Fault String := do
  let values ← payloadText m.payload
  let list := ", ".intercalate (values.map String.ofList)
  let size := m.payload.length
  return s!"Message(type={m.type}, payload_length={size}, payload=[{list}])"

/-- A logger takes records at its threshold and above; level 0 and below is always off. -/
def takes (threshold level : Int) : Bool :=
  0 < level && threshold ≤ level

/-- Logs a message. One that is not taken is not put into words either. -/
def log (source : LogSource) (threshold level : Int) (m : Message) : Traced Unit :=
  if takes threshold level then
    match m.describe with
    | .ok text => ⟨.ok (), [.log ⟨source, level, text⟩]⟩
    | .error e => .silent (.error e)
  else .silent (.ok ())

end Message

end ProofCarrying
