import ProofCarrying.Fault
import ProofCarrying.Text.Numeral

/-! Records: lines of integers with single spaces between them. -/

namespace ProofCarrying

abbrev Record := List Int

namespace Record

def spaced (ws : List (List Char)) : List Char :=
  [' '].intercalate ws

def line (r : Record) : List Char :=
  spaced (r.map Text.integerText) ++ ['\n']

def render (rs : List Record) : List Char :=
  rs.flatMap line

/-- A record of numbers that have few enough digits. -/
def isWritable (r : Record) : Bool :=
  r.all Text.isWritable

/-- What is written of a row of records before the first that cannot be written. -/
def renderWritable (rs : List Record) : List Char :=
  render (rs.takeWhile isWritable)

def write (rs : List Record) : Except Fault (List Char) :=
  if rs.all isWritable then .ok (render rs) else .error .tooManyDigits

end Record

end ProofCarrying
