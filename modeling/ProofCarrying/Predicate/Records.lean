import ProofCarrying.Predicate.Basic

/-! Predicates as records: name, type, number of slots, the payload length of each slot, the
other lengths, and the records of the constraint system. The hint on types is not written. -/

namespace ProofCarrying

namespace Shape

def records (s : Shape) : List Record :=
  [[s.name], [s.type], [s.maxArity]] ++ s.incoming.map (fun l => [l]) ++
    [[s.outgoing], [s.localData], [s.witness]]

def slotLabel (slot : Nat) : String :=
  s!"incoming_message_payload_lengths[{slot}]"

def read : Action Source Shape := do
  let name ← Source.number "name"
  let type ← Source.number "type"
  let maxArity ← Source.number "max_arity"
  let incoming ← Action.numbered (fun slot => Source.number (slotLabel slot)) 0 maxArity
  let outgoing ← Source.number "outgoing_message_payload_length"
  let localData ← Source.number "local_data_length"
  let witness ← Source.number "witness_length"
  pure ⟨name, type, outgoing, maxArity, incoming.map Int.ofNat, localData, witness⟩

end Shape

namespace Predicate

variable {κ : Type} [ConstraintSystem κ]

def records (p : Predicate κ) : List Record :=
  p.shape.records ++ ConstraintSystem.records p.system

def encode (p : Predicate κ) : Except Fault (List Char) :=
  Record.write p.records

def read (readSystem : Action Source κ) (field? : Option ScalarField) :
    Action Source (Predicate κ) := do
  let shape ← Shape.read
  let system ← readSystem
  Action.ofExcept (Predicate.ofShape shape system false field?)

def decode (readSystem : Action Source κ) (field? : Option ScalarField) (text : List Char) :
    Except Fault (Predicate κ) :=
  (read readSystem field? (Source.ofText text)).1

end Predicate

end ProofCarrying
