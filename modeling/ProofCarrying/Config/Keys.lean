import ProofCarrying.Datum
import ProofCarrying.Fault

/-! Checks on the keys and numbers of a configuration. -/

namespace ProofCarrying.Config

abbrev Entries := List (Datum × Datum)

/-- The entries of a mapping, and the store that their values refer to. -/
structure Section where
  entries : Entries
  store : Datum.Store

/-- Entries whose values refer to nothing else. -/
def Section.ofEntries (m : Entries) : Section :=
  ⟨m, #[]⟩

/-- Enters a text into a list that is sorted by code points, after those equal to it. -/
def enter (t : Text.CodePoints) : List Text.CodePoints → List Text.CodePoints
  | [] => [t]
  | u :: us => if u.notAfter t then u :: enter t us else t :: u :: us

def sorted (ts : List Text.CodePoints) : List Text.CodePoints :=
  ts.foldl (fun us t => enter t us) []

/-- The plain form of a key, which has to be one that can be written. -/
def plainForm (key : Datum) : Except Fault Text.CodePoints :=
  match key.plain with
  | some t => .ok t
  | none => .error .tooManyDigits

def plainForms : List Datum → Except Fault (List Text.CodePoints)
  | [] => .ok []
  | k :: ks => do
    let t ← plainForm k
    let ts ← plainForms ks
    return t :: ts

/-- Keys that may not stand in a section, by their plain forms. -/
def unknown (allowed : List Datum) (m : Entries) : Except Fault (List Text.CodePoints) := do
  let names ← plainForms allowed
  let keys ← plainForms (m.map (·.1))
  return sorted (keys.filter fun k => !names.contains k)

def checkAllowed (place : String) (allowed : List Datum) (m : Entries) : Except Fault Unit := do
  match ← unknown allowed m with
  | [] => .ok ()
  | keys => .error (.unknownKeys place keys)

/-- The plain forms of keys that are not there. Lists and mappings cannot be looked up. -/
def missing (m : Entries) : List Datum → Except Fault (List Text.CodePoints)
  | [] => .ok []
  | k :: ks =>
    if !k.isKey then .error .notKey
    else if (Datum.lookup k m).isSome then missing m ks
    else do
      let t ← plainForm k
      let ts ← missing m ks
      return t :: ts

def checkRequired (place : String) (required : List Datum) (m : Entries) : Except Fault Unit := do
  let keys ← missing m required
  match sorted keys with
  | [] => .ok ()
  | keys => .error (.missingKeys place keys)

/-- An integer that is not negative. Truth values and floating-point numbers are none. -/
def wholeNumber (store : Datum.Store) (place : String) (d : Datum) : Except Fault Int :=
  match d with
  | .integer n => if 0 ≤ n then .ok n else .error (.negativeNumber place n)
  | d =>
    match d.written store with
    | some w => .error (.notWholeNumber place w)
    | none => .error .tooManyDigits

end ProofCarrying.Config
