import ProofCarrying.Text.Numeral
import ProofCarrying.Text.Quoted

/-! What can go wrong, by cause, and how each cause is worded. -/

namespace ProofCarrying

inductive Fault
  /- elements -/
  | smallModulus
  | zeroModulus
  | mixedModuli (left right : Int)
  | zeroInverse
  | notInvertible
  | notOperand
  | notNumber
  | outOfRange
  | notInteger
  | tooManyDigits
  | longNumeral (digits : Nat)
  | invalidElement (text : List Char)
  | elementOutOfRange (value : Int) (modulus : Nat)
  /- rank-one systems -/
  | negativeIndex
  | missingVariable
  | noConstantWire
  | fewerVariables
  | strayVariable (position : Nat) (index total : Int)
  | primaryLength (given : Nat) (expected : Int)
  | auxiliaryLength (given : Nat) (expected : Int)
  /- records -/
  | streamEnded (label : String)
  | emptyRecord (label : String)
  | notDecimal (label : String) (record : List Char)
  | malformedTerm (record : List Char)
  | badCoefficient (cause : Fault)
  | inconsistentSystem (cause : Fault)
  /- messages and layout -/
  | negativeMessageType
  | outgoingLength (given : Nat) (expected : Int)
  | tooManyMessages (given slots : Nat)
  | incomingLength (slot given : Nat) (expected : Int)
  | localDataLength (given : Nat) (expected : Int)
  | witnessLength (given : Nat) (expected : Int)
  | missingPayloadEntry
  /- predicates -/
  | slotCount (given : Nat) (maxArity : Int)
  | negativeQuantity (label : String) (value : Int)
  | negativeSlotLength (slot : Nat) (length : Int)
  | fieldRequired
  | readerRequired
  | zeroTallyType
  /- random draws -/
  | emptyRange
  | missingSlot
  /- files and configurations -/
  | storage
  | undecodable
  | unsupportedSuffix (suffix : List Char)
  | malformedJson
  | malformedYaml
  | unknownScalar
  | emptyScalar
  | notCharacter
  | rootNotMapping
  | unknownKeys (place : String) (keys : List Text.CodePoints)
  | missingKeys (place : String) (keys : List Text.CodePoints)
  | notKey
  | notWholeNumber (place : String) (written : List Char)
  | negativeNumber (place : String) (value : Int)
  | lengthsNotList
  | reliesNotBoolean
  deriving DecidableEq

namespace Fault

/-- The sorts of faults a caller can tell apart. -/
inductive Kind
  | shape
  | format
  | value
  | division
  | operand
  | index
  | overflow
  | key
  | encoding
  | storage
  | json
  | yaml
  deriving DecidableEq

/-- Arguments that disagree with a declared shape, streams that break their format, and plain
values out of place are kept apart. -/
def kind : Fault → Kind
  | zeroModulus | zeroInverse => .division
  | notOperand | notKey => .operand
  | outOfRange => .overflow
  | missingVariable | missingPayloadEntry | missingSlot | emptyScalar => .index
  | unknownScalar => .key
  | primaryLength .. | auxiliaryLength .. | outgoingLength .. | tooManyMessages ..
  | incomingLength .. | localDataLength .. | witnessLength .. | slotCount ..
  | negativeQuantity .. | negativeSlotLength .. => .shape
  | streamEnded .. | emptyRecord .. | notDecimal .. | malformedTerm .. | badCoefficient ..
  | inconsistentSystem .. => .format
  | storage => .storage
  | undecodable => .encoding
  | malformedJson => .json
  | malformedYaml => .yaml
  | _ => .value

def quotedList (keys : List Text.CodePoints) : String :=
  "[" ++ ", ".intercalate (keys.map fun k => String.ofList (Text.quoted k)) ++ "]"

/-- The words in which the conversion of integers speaks of its limit. With a numeral that is to be
read they give its number of digits. -/
def limitWords : Option Nat → String
  | none =>
    s!"Exceeds the limit ({Text.digitLimit} digits) for integer string conversion; use " ++
      "sys.set_int_max_str_digits() to increase the limit"
  | some digits =>
    s!"Exceeds the limit ({Text.digitLimit} digits) for integer string conversion: value has " ++
      s!"{digits} digits; use sys.set_int_max_str_digits() to increase the limit"

/-- The numbers in the words of a fault that may have any number of digits. -/
def numbers : Fault → List Int
  | mixedModuli left right => [left, right]
  | elementOutOfRange value modulus => [value, modulus]
  | strayVariable _ index total => [index, total]
  | primaryLength _ expected | auxiliaryLength _ expected | outgoingLength _ expected
  | incomingLength _ _ expected | localDataLength _ expected | witnessLength _ expected =>
    [expected]
  | slotCount _ maxArity => [maxArity]
  | negativeQuantity _ value | negativeNumber _ value => [value]
  | negativeSlotLength _ length => [length]
  | _ => []

/-- What is repeated of the words of a cause: these words, unless they hold a number that cannot be
converted. -/
def repeated (cause : Fault) (words : String) : String :=
  if cause.numbers.all Text.isWritable then words else limitWords none

def message : Fault → String
  | smallModulus => "modulus must be >= 2"
  | zeroModulus => "the modulus is zero"
  | mixedModuli left right => s!"cannot combine elements of GF({left}) and GF({right})"
  | zeroInverse => "zero has no inverse"
  | notInvertible => "no inverse for this modulus"
  | notOperand => "not an operand of this operation"
  | notNumber => "not a number"
  | outOfRange => "out of range"
  | notInteger => "not an integer"
  | tooManyDigits => limitWords none
  | longNumeral digits => limitWords (some digits)
  | invalidElement text =>
    let t := Text.quote text
    s!"invalid field element encoding {t}"
  | elementOutOfRange value modulus =>
    s!"field element {value} out of range for GF({modulus})"
  | negativeIndex => "variable index must be >= 0"
  | missingVariable => "a variable lies beyond the assignment"
  | noConstantWire => "n_public_inputs must count the constant wire (>= 1)"
  | fewerVariables => "n_total_variables must be >= n_public_inputs"
  | strayVariable position index total =>
    s!"constraint {position} references variable {index} but only {total} variables exist"
  | primaryLength given expected =>
    s!"primary input has {given} entries, expected {expected}"
  | auxiliaryLength given expected =>
    s!"auxiliary input has {given} entries, expected {expected}"
  | streamEnded label => s!"stream ended before {label}"
  | emptyRecord label => s!"empty record for {label}"
  | notDecimal label record =>
    let r := Text.quote record
    s!"{label} must be a non-negative integer, got {r}"
  | malformedTerm record =>
    let r := Text.quote record
    s!"malformed term record {r}"
  | badCoefficient cause => repeated cause cause.message
  | inconsistentSystem cause =>
    let m := repeated cause cause.message
    s!"inconsistent constraint system: {m}"
  | negativeMessageType => "message type must be >= 0"
  | outgoingLength given expected =>
    s!"outgoing message payload has length {given}, expected {expected}"
  | tooManyMessages given slots =>
    s!"got {given} incoming messages but max_arity is {slots}"
  | incomingLength slot given expected =>
    s!"incoming message {slot} payload has length {given}, expected {expected}"
  | localDataLength given expected =>
    s!"local data payload has length {given}, expected {expected}"
  | witnessLength given expected => s!"witness has length {given}, expected {expected}"
  | missingPayloadEntry => "a payload is too short"
  | slotCount given maxArity =>
    s!"incoming_message_payload_lengths has {given} entries but max_arity is {maxArity}"
  | negativeQuantity label value => s!"{label} must be >= 0, got {value}"
  | negativeSlotLength slot length =>
    s!"incoming_message_payload_lengths[{slot}] must be >= 0, got {length}"
  | fieldRequired => "field is required when the constraint system does not expose one"
  | readerRequired => "either field or read_constraint_system is required"
  | zeroTallyType => "tally type must be non-zero in the field"
  | emptyRange => "low >= high"
  | missingSlot => "there are more messages than slots"
  | storage => "the file cannot be opened"
  | undecodable => "the file is not UTF-8"
  | unsupportedSuffix suffix =>
    let s := Text.quote suffix
    s!"unsupported config file extension {s}; expected one of .json, .yaml, .yml"
  | malformedJson => "malformed JSON"
  | malformedYaml => "malformed YAML"
  | unknownScalar => "no value of this name"
  | emptyScalar => "a number has no digits"
  | notCharacter => "no character has this number"
  | rootNotMapping => "config root must be a JSON/YAML object"
  | unknownKeys place keys =>
    let ks := quotedList keys
    s!"{place} has unknown keys: {ks}"
  | missingKeys place keys =>
    let ks := quotedList keys
    s!"{place} is missing required keys: {ks}"
  | notKey => "a list or a mapping is no key"
  | notWholeNumber place written =>
    let w := String.ofList written
    s!"{place} must be an integer, got {w}"
  | negativeNumber place value => s!"{place} must be >= 0, got {value}"
  | lengthsNotList => "predicate.incoming_message_payload_lengths must be a list"
  | reliesNotBoolean => "predicate.relies_on_same_type_inputs must be a boolean"

/-- What a caller is told in the words of this library. Where an integer cannot be converted, be it
one of the numbers in these words or a numeral that was to be read, the words are those of the
conversion, and `tooManyDigits` stands for them. -/
def told : Fault → Fault
  | longNumeral _ => tooManyDigits
  | f => if f.numbers.all Text.isWritable then f else tooManyDigits

theorem kind_told_of_value {f : Fault} (h : f.kind = .value) : f.told.kind = .value := by
  rw [told.eq_def]
  split
  · rfl
  · split
    · exact h
    · rfl

theorem told_eq_ite {f : Fault} (h : f.kind ≠ .value) :
    f.told = if f.numbers.all Text.isWritable then f else tooManyDigits := by
  cases f with
  | longNumeral digits => exact absurd rfl h
  | _ => rfl

theorem told_cases {f : Fault} (h : f.kind ≠ .value) :
    (∀ n ∈ f.numbers, Text.isWritable n = true) ∧ f.told = f ∨
      (∃ n ∈ f.numbers, Text.isWritable n = false) ∧ f.told = tooManyDigits := by
  rw [told_eq_ite h]
  split
  next h => exact Or.inl ⟨List.all_eq_true.mp h, rfl⟩
  next h => exact Or.inr ⟨by simpa using h, rfl⟩

/-- What is told in place of a fault is a plain value out of place, so any other kind that is told
is the kind of the fault itself. -/
theorem kind_told_eq_iff {f : Fault} {k : Kind} (hk : k ≠ .value) :
    f.told.kind = k ↔ f.kind = k ∧ ∀ n ∈ f.numbers, Text.isWritable n = true := by
  by_cases h : f.kind = .value
  · simp [kind_told_of_value h, h, hk.symm]
  · rw [told_eq_ite h, ← List.all_eq_true]
    split
    next h => simp [h]
    next h => simp [h, kind, hk.symm]

theorem kind_told_eq_shape_iff {f : Fault} :
    f.told.kind = .shape ↔ f.kind = .shape ∧ ∀ n ∈ f.numbers, Text.isWritable n = true :=
  kind_told_eq_iff (by decide)

end Fault

end ProofCarrying
