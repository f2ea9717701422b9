import ProofCarrying.Record.Basic
import ProofCarrying.Record.Source

/-! Texts in memory that are read and written at a position. -/

namespace ProofCarrying

structure Tape where
  text : List Char
  position : Nat

namespace Tape

def ofText (s : List Char) : Tape :=
  ⟨s, 0⟩

def rest (t : Tape) : List Char :=
  t.text.drop t.position

def rewind (t : Tape) : Tape :=
  { t with position := 0 }

def toEnd (t : Tape) : Tape :=
  { t with position := t.text.length }

/-- Reads from the position on and stays where reading stops. -/
def reading {α : Type} (p : Action Source α) : Action Tape α :=
  fun t =>
    let (r, s) := p (Source.ofText t.rest)
    (r, { t with position := t.text.length - s.rest.length })

/-- Writes over what follows the position. -/
def put (t : Tape) (s : List Char) : Tape :=
  ⟨t.text.take t.position ++ s ++ t.text.drop (t.position + s.length), t.position + s.length⟩

/-- Writes records up to the first that cannot be written. -/
def writing (rs : List Record) : Action Tape Unit :=
  fun t => ((Record.write rs).map fun _ => (), t.put (Record.renderWritable rs))

end Tape

end ProofCarrying
