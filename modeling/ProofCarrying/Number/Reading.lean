import ProofCarrying.Number.Binary64
import ProofCarrying.Text.Numeral

/-! Reading floating-point numbers: digits with an optional point and an optional power of
ten, the infinities, and what is not a number. -/

namespace ProofCarrying.Binary64

open Text

/-- The longest run of digits and single underscores between digits at the start of a text,
without the underscores, and the rest. -/
def spanGrouped : List Char → List Char × List Char
  | [] => ([], [])
  | c :: cs =>
    if isDigit c then
      match cs with
      | '_' :: d :: ds =>
        if isDigit d then
          let (run, rest) := spanGrouped (d :: ds)
          (c :: run, rest)
        else ([c], '_' :: d :: ds)
      | cs =>
        let (run, rest) := spanGrouped cs
        (c :: run, rest)
    else ([], c :: cs)

/-- The power of ten at the end of a number. -/
def exponent? : List Char → Option Int
  | [] => some 0
  | c :: cs =>
    if c = 'e' ∨ c = 'E' then
      let (negative, ds) :=
        match cs with
        | '-' :: ds => (true, ds)
        | '+' :: ds => (false, ds)
        | ds => (false, ds)
      match spanGrouped ds with
      | ([], _) => none
      | (run, []) => some (if negative then -(digitsValue run : Int) else digitsValue run)
      | _ => none
    else none

/-- The digits before and after the point, and the power of ten. -/
def assemble (negative : Bool) (whole places rest : List Char) : Option Binary64 :=
  if whole.isEmpty && places.isEmpty then none
  else
    (exponent? rest).map fun e =>
      ofDecimal negative (digitsValue (whole ++ places)) (e - places.length)

def unsigned? (negative : Bool) (s : List Char) : Option Binary64 :=
  let small := s.map Char.toLower
  if small = ['i', 'n', 'f'] ∨ small = "infinity".toList then some (infinite negative)
  else if small = ['n', 'a', 'n'] then some nan
  else
    match spanGrouped s with
    | (whole, '.' :: rest) =>
      let (places, rest) := spanGrouped rest
      assemble negative whole places rest
    | (whole, rest) => assemble negative whole [] rest

/-- The number that a text denotes, with blanks around it. -/
def ofText? (s : List Char) : Option Binary64 :=
  match trimBy isPadding s with
  | '-' :: s => unsigned? true s
  | '+' :: s => unsigned? false s
  | s => unsigned? false s

end ProofCarrying.Binary64
