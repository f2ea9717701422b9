import ProofCarrying.Config.Keys
import ProofCarrying.Predicate.Basic

/-! Predicates from configurations that describe their shape, and the configurations of
shapes. The constraint system comes from elsewhere. -/

namespace ProofCarrying

namespace Shape

def key (name : String) : Datum :=
  .text (.ofChars name.toList)

def requiredKeys : List Datum :=
  [key "name", key "type", key "outgoing_message_payload_length",
    key "incoming_message_payload_lengths", key "local_data_length", key "witness_length"]

def optionalKeys : List Datum :=
  [key "max_arity", key "relies_on_same_type_inputs"]

/-- The value of a key that is known to be there. -/
def entry (s : Config.Section) (name : String) : Datum :=
  (Datum.lookup (key name) s.entries).getD .null

def number (s : Config.Section) (name : String) : Except Fault Int :=
  Config.wholeNumber s.store s!"predicate.{name}" (entry s name)

def slotLengths (store : Datum.Store) : Nat → List Datum → Except Fault (List Int)
  | _, [] => .ok []
  | slot, d :: ds => do
    let n ← Config.wholeNumber store s!"predicate.incoming_message_payload_lengths[{slot}]" d
    let ns ← slotLengths store (slot + 1) ds
    return n :: ns

def incomingOf (store : Datum.Store) (d : Datum) : Except Fault (List Int) :=
  match d.resolve store with
  | .list items => slotLengths store 0 items
  | .tuple items => slotLengths store 0 items
  | _ => .error .lengthsNotList

/-- The hint on types, which is absent unless it is given. -/
def reliesOf (d : Option Datum) : Except Fault Bool :=
  match d with
  | none => .ok false
  | some (.boolean b) => .ok b
  | some _ => .error .reliesNotBoolean

/-- The number of slots, which is that of the lengths unless it is given. -/
def maxArityOf (s : Config.Section) (slots : Nat) : Except Fault Int :=
  Config.wholeNumber s.store "predicate.max_arity"
    ((Datum.lookup (key "max_arity") s.entries).getD (.integer slots))

/-- The shape that a configuration describes, and its hint on types. -/
def ofConfig (s : Config.Section) : Except Fault (Shape × Bool) := do
  Config.checkAllowed "predicate" (requiredKeys ++ optionalKeys) s.entries
  Config.checkRequired "predicate" requiredKeys s.entries
  let incoming ← incomingOf s.store (entry s "incoming_message_payload_lengths")
  let relies ← reliesOf (Datum.lookup (key "relies_on_same_type_inputs") s.entries)
  let name ← number s "name"
  let type ← number s "type"
  let outgoing ← number s "outgoing_message_payload_length"
  let maxArity ← maxArityOf s incoming.length
  let localData ← number s "local_data_length"
  let witness ← number s "witness_length"
  return (⟨name, type, outgoing, maxArity, incoming, localData, witness⟩, relies)

end Shape

namespace Predicate

variable {κ : Type} [ConstraintSystem κ]

def ofConfig (s : Config.Section) (system : κ) (field? : Option ScalarField) :
    Except Fault (Predicate κ) := do
  let (shape, relies) ← Shape.ofConfig s
  Predicate.ofShape shape system relies field?

omit [ConstraintSystem κ] in
def config (p : Predicate κ) : Config.Entries :=
  [(Shape.key "name", .integer p.shape.name),
    (Shape.key "type", .integer p.shape.type),
    (Shape.key "max_arity", .integer p.shape.maxArity),
    (Shape.key "outgoing_message_payload_length", .integer p.shape.outgoing),
    (Shape.key "incoming_message_payload_lengths",
      .list (p.shape.incoming.map Datum.integer)),
    (Shape.key "local_data_length", .integer p.shape.localData),
    (Shape.key "witness_length", .integer p.shape.witness),
    (Shape.key "relies_on_same_type_inputs", .boolean p.reliesOnSameType)]

end Predicate

end ProofCarrying
