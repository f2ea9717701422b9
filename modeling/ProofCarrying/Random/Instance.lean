import ProofCarrying.Predicate.Report
import ProofCarrying.RankOne.Records
import ProofCarrying.Random.Generator

/-! Random constraint systems that a given assignment satisfies, and random predicates with
inputs that satisfy them. -/

namespace ProofCarrying

open RankOne

variable {γ : Type} [Generator γ]

def randomMessage (F : ScalarField) (type payloadLength : Int) : Action γ Message := do
  let payload ← F.randomElements payloadLength
  Action.ofExcept (Message.ofInt type payload)

namespace RankOne

/-- Enters an index into a strictly increasing list. -/
def enterIndex (i : Int) : List Int → List Int
  | [] => [i]
  | j :: js =>
    if i < j then i :: j :: js
    else if i = j then j :: js
    else j :: enterIndex i js

def distinct (is : List Int) : List Int :=
  is.foldl (fun js i => enterIndex i js) []

def randomTerm (F : ScalarField) (i : Int) : Action γ Term := do
  let c ← F.randomElement
  pure ⟨i.toNat, c⟩

/-- Draws how many terms there are at most, then their indices, then a coefficient for each
distinct index. -/
def randomCombination (F : ScalarField) (width : Nat) (maxTerms : Int) :
    Action γ Combination := do
  let n ← Generator.integer 1 (maxTerms + 1)
  let indices ← Generator.integers 0 width n.toNat
  Action.each (randomTerm F) (distinct indices)

/-- The third combination puts the product of the other two on the constant wire. -/
def randomConstraint (F : ScalarField) (z : List Residue) (maxTerms : Int) :
    Action γ Constraint := do
  let a ← randomCombination F z.length maxTerms
  let b ← randomCombination F z.length maxTerms
  let product ← Action.ofExcept do
    let x ← a.evaluate F z
    let y ← b.evaluate F z
    x.mul y
  pure ⟨a, b, [⟨0, product⟩]⟩

/-- A system that is satisfied by the constant one followed by `assignment`. -/
def randomSystem (F : ScalarField) (numPublicInputs : Int) (assignment : List Residue)
    (numConstraints maxTerms : Int) : Action γ System := do
  let z := F.one :: assignment
  let constraints ← Action.times numConstraints.toNat (randomConstraint F z maxTerms)
  Action.ofExcept (mkSystem F numPublicInputs z.length constraints)

/-- How many terms a combination has at most unless another number is chosen. -/
def standardTerms : Int := 3

end RankOne

/-- What a random predicate should be like. Without an arity one is drawn. -/
structure Request where
  maxArity : Int
  arity? : Option Int
  maxPayloadLength : Int
  numConstraints : Int
  name : Int
  type : Int

/-- A predicate together with inputs that satisfy it. -/
structure Instance where
  predicate : Predicate System
  outgoing : Message
  inputs : Inputs

def randomLength (r : Request) : Action γ Int :=
  Generator.integer 0 (r.maxPayloadLength + 1)

def randomArity (r : Request) : Action γ Int :=
  match r.arity? with
  | some n => pure n
  | none => Generator.integer 0 (r.maxArity + 1)

/-- A message for the slot of the given number, if there is such a slot. -/
def randomIncoming (F : ScalarField) (type : Int) (lengths : List Int) (slot : Nat) :
    Action γ Message :=
  match lengths[slot]? with
  | some length => randomMessage F type length
  | none => .fail .missingSlot

/-- Draws the lengths, the arity, the messages and private inputs, and a constraint system that
they satisfy, in this order. -/
def randomInstance (F : ScalarField) (r : Request) : Action γ Instance := do
  let incoming ← Action.times r.maxArity.toNat (randomLength r)
  let outgoingLength ← randomLength r
  let localLength ← randomLength r
  let witnessLength ← randomLength r
  let arity ← randomArity r
  let outgoing ← randomMessage F r.type outgoingLength
  let messages ← Action.numbered (randomIncoming F r.type incoming) 0 arity.toNat
  let localData ← F.randomElements localLength
  let witness ← F.randomElements witnessLength
  let inputs : Inputs := ⟨messages, localData, witness⟩
  let primary ← Action.ofExcept (Layout.primary outgoing outgoingLength)
  let auxiliary ← Action.ofExcept (Layout.auxiliary F incoming localLength witnessLength inputs)
  let system ← randomSystem F (outgoingLength + 1) (primary ++ auxiliary) r.numConstraints
    standardTerms
  let shape : Shape :=
    ⟨r.name, r.type, outgoingLength, r.maxArity, incoming, localLength, witnessLength⟩
  let predicate ← Action.ofExcept (Predicate.ofShape shape system false none)
  pure ⟨predicate, outgoing, inputs⟩

end ProofCarrying
