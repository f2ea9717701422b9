import ProofCarrying.ConstraintSystem
import ProofCarrying.Layout

/-! Compliance predicates: a constraint system bound to a fixed shape of messages and private
inputs. -/

namespace ProofCarrying

/-- The declared numbers of a predicate. A negative number is declared by mistake only. -/
structure Shape where
  name : Int
  type : Int
  outgoing : Int
  maxArity : Int
  incoming : List Int
  localData : Int
  witness : Int
  deriving DecidableEq

namespace Shape

/-- The numbers that must not be negative, in the order of their checks. -/
def quantities (s : Shape) : List (String × Int) :=
  [("name", s.name), ("type", s.type), ("max_arity", s.maxArity),
    ("outgoing_message_payload_length", s.outgoing), ("local_data_length", s.localData),
    ("witness_length", s.witness)]

def negative? : List (String × Int) → Option Fault
  | [] => none
  | (label, n) :: rest => if n < 0 then some (.negativeQuantity label n) else negative? rest

def negativeSlot? : Nat → List Int → Option Fault
  | _, [] => none
  | slot, l :: ls =>
    if l < 0 then some (.negativeSlotLength slot l) else negativeSlot? (slot + 1) ls

def fault? (s : Shape) : Option Fault :=
  if (s.incoming.length : Int) ≠ s.maxArity then
    some (.slotCount s.incoming.length s.maxArity)
  else
    match negative? s.quantities with
    | some f => some f
    | none => negativeSlot? 0 s.incoming

def publicInputs (s : Shape) : Int :=
  s.outgoing + 1

/-- The public inputs, the arity, a type and a payload for each slot, and the private data. -/
def totalVariables (s : Shape) : Int :=
  Layout.payloadTotal s.incoming + s.outgoing + s.localData + (s.maxArity + 1) + 1 + s.witness

def auxiliaryLength (s : Shape) : Int :=
  Layout.auxiliaryLength s.incoming s.localData s.witness

def equalInputAndOutput (s : Shape) : Bool :=
  s.incoming.all (· == s.outgoing)

def equalInputs (s : Shape) : Bool :=
  match s.incoming with
  | [] => true
  | l :: ls => ls.all (· == l)

/-- One incoming length for each slot, and nothing negative. -/
def Admissible (s : Shape) : Prop :=
  (s.incoming.length : Int) = s.maxArity ∧ 0 ≤ s.name ∧ 0 ≤ s.type ∧ 0 ≤ s.outgoing ∧
    0 ≤ s.localData ∧ 0 ≤ s.witness ∧ ∀ l ∈ s.incoming, 0 ≤ l

theorem negative?_eq_none_iff {qs : List (String × Int)} :
    negative? qs = none ↔ ∀ q ∈ qs, 0 ≤ q.2 := by
  induction qs with
  | nil => simp [negative?]
  | cons q qs ih =>
    rw [negative?]
    split
    next h => simp [Int.not_le.mpr h]
    next h => simp [ih, Int.not_lt.mp h]

theorem negativeSlot?_eq_none_iff {slot : Nat} {ls : List Int} :
    negativeSlot? slot ls = none ↔ ∀ l ∈ ls, 0 ≤ l := by
  induction ls generalizing slot with
  | nil => simp [negativeSlot?]
  | cons l ls ih =>
    rw [negativeSlot?]
    split
    next h => simp [Int.not_le.mpr h]
    next h => simp [ih, Int.not_lt.mp h]

theorem fault?_eq_none_iff {s : Shape} : s.fault? = none ↔ s.Admissible := by
  rw [fault?, Admissible]
  split
  next h => simp [h]
  next h =>
    have hm : 0 ≤ s.maxArity := by omega
    have hq : negative? s.quantities = none ↔
        0 ≤ s.name ∧ 0 ≤ s.type ∧ 0 ≤ s.outgoing ∧ 0 ≤ s.localData ∧ 0 ≤ s.witness := by
      simp [negative?_eq_none_iff, quantities, hm]
    cases hn : negative? s.quantities with
    | some f =>
      simp only [reduceCtorEq, false_iff]
      intro ⟨_, h₁, h₂, h₃, h₄, h₅, _⟩
      rw [hq.mpr ⟨h₁, h₂, h₃, h₄, h₅⟩] at hn
      cases hn
    | none =>
      obtain ⟨h₁, h₂, h₃, h₄, h₅⟩ := hq.mp hn
      simp [negativeSlot?_eq_none_iff, h₁, h₂, h₃, h₄, h₅, Decidable.not_not.mp h]

end Shape

/-- The field encodes the arity, the types and empty slots. That all incoming messages share
the predicate's type is a hint to those who compose predicates. -/
structure Predicate (κ : Type) where
  shape : Shape
  system : κ
  reliesOnSameType : Bool
  field : ScalarField
  deriving DecidableEq

namespace Predicate

variable {κ : Type}

/-- Without a field of its own a predicate takes that of the constraint system. -/
def ofShape [ConstraintSystem κ] (shape : Shape) (system : κ) (reliesOnSameType : Bool)
    (field? : Option ScalarField) : Except Fault (Predicate κ) :=
  match shape.fault? with
  | some f => .error f
  | none =>
    match field?.or (ConstraintSystem.field? system) with
    | some field => .ok ⟨shape, system, reliesOnSameType, field⟩
    | none => .error .fieldRequired

theorem ofShape_eq_ok_iff [ConstraintSystem κ] {shape : Shape} {system : κ}
    {reliesOnSameType : Bool} {field? : Option ScalarField} {p : Predicate κ} :
    ofShape shape system reliesOnSameType field? = .ok p ↔
      shape.Admissible ∧ p.shape = shape ∧ p.system = system ∧
        p.reliesOnSameType = reliesOnSameType ∧
        field?.or (ConstraintSystem.field? system) = some p.field := by
  rw [ofShape, ← Shape.fault?_eq_none_iff]
  cases shape.fault? with
  | some f => simp
  | none =>
    cases field?.or (ConstraintSystem.field? system) with
    | none => simp
    | some field =>
      obtain ⟨s, c, r, g⟩ := p
      simp only [Except.ok.injEq, mk.injEq, true_and, Option.some.injEq]
      constructor
      · rintro ⟨rfl, rfl, rfl, rfl⟩
        simp
      · rintro ⟨rfl, rfl, rfl, rfl⟩
        simp

theorem admissible_of_ofShape [ConstraintSystem κ] {shape : Shape} {system : κ}
    {reliesOnSameType : Bool} {field? : Option ScalarField} {p : Predicate κ}
    (h : ofShape shape system reliesOnSameType field? = .ok p) : p.shape.Admissible := by
  obtain ⟨hs, he, _⟩ := ofShape_eq_ok_iff.mp h
  rwa [he]

/-- Overwrites the incoming lengths and checks nothing. -/
def withIncoming (p : Predicate κ) (lengths : List Int) : Predicate κ :=
  { p with shape := { p.shape with incoming := lengths } }

/-- Predicates of the same shape over the same system. Neither the field nor the hint on types
counts. -/
def same [DecidableEq κ] (p q : Predicate κ) : Bool :=
  p.shape == q.shape && p.system == q.system

def primaryInput (p : Predicate κ) (outgoing : Message) : Except Fault (List Residue) :=
  Layout.primary outgoing p.shape.outgoing

def auxiliaryInput (p : Predicate κ) (inputs : Inputs) : Except Fault (List Residue) :=
  Layout.auxiliary p.field p.shape.incoming p.shape.localData p.shape.witness inputs

/-- The verdict of the constraint system on the vectors of a node. -/
def isSatisfied [ConstraintSystem κ] (p : Predicate κ) (outgoing : Message) (inputs : Inputs) :
    Traced Bool :=
  match p.primaryInput outgoing with
  | .error e => .silent (.error e)
  | .ok primary =>
    match p.auxiliaryInput inputs with
    | .error e => .silent (.error e)
    | .ok auxiliary => ConstraintSystem.satisfied p.system primary auxiliary

/-- Whether the types of incoming messages fit the hint. -/
def acceptsTypes (p : Predicate κ) (incoming : List Message) : Bool :=
  !p.reliesOnSameType || incoming.all fun m => (m.type : Int) == p.shape.type

end Predicate

end ProofCarrying
