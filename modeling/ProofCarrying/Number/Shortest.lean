import ProofCarrying.Number.Binary64
import ProofCarrying.Text.Numeral

/-! Floating-point numbers as decimal text: the fewest digits that read back, written
positionally for exponents from -4 to 15 and with a power of ten otherwise. -/

namespace ProofCarrying.Binary64

/-- `exponent` is the power of ten of the last digit. -/
structure Decimal where
  digits : Nat
  exponent : Int
  deriving DecidableEq

/-- How far a decimal lies from a fraction, over the fraction's denominator and a common
power of ten. -/
def distance (num den : Nat) (d : Decimal) : Nat :=
  let (a, b) := scale 10 d.digits 1 d.exponent
  (((num * b : Nat) : Int) - (a * den : Nat)).natAbs

/-- The nearest decimal on the grid of one power of ten that reads back as the given number. -/
def onGrid? (significand : Nat) (exponent : Int) (grid : Int) : Option Decimal :=
  let (num, den) := fraction significand exponent
  let (a, b) := scale 10 1 1 grid
  let low := num * b / (den * a)
  let reads (d : Nat) := ofDecimal false d grid = finite false significand exponent
  let below : Decimal := ⟨low, grid⟩
  let above : Decimal := ⟨low + 1, grid⟩
  if reads low then
    if reads (low + 1) then
      let x := distance num den below
      let y := distance num den above
      if x < y then some below
      else if y < x then some above
      else if low % 2 = 0 then some below else some above
    else some below
  else if reads (low + 1) then some above
  else none

/-- The exponent of the leading decimal digit of a positive fraction. -/
def leadingExponent (num den : Nat) : Int :=
  if den ≤ num then ((Nat.toDigits 10 (num / den)).length : Int) - 1
  else
    let l := ((Nat.toDigits 10 (den / num)).length : Int)
    if den ≤ num * Nat.pow 10 (l - 1).toNat then 1 - l else -l

/-- Tries grids from coarse to fine. -/
def search (significand : Nat) (exponent : Int) : Nat → Int → Decimal
  | 0, grid => ⟨0, grid⟩
  | fuel + 1, grid =>
    match onGrid? significand exponent grid with
    | some d => d
    | none => search significand exponent fuel (grid - 1)

/-- The shortest decimal of a positive number. Seventeen digits always suffice. -/
def shortest (significand : Nat) (exponent : Int) : Decimal :=
  let (num, den) := fraction significand exponent
  search significand exponent 18 (leadingExponent num den)

/-- Splits off trailing zeros, which carry no information next to an exponent. -/
def stripZeros (digits : List Char) : List Char :=
  match (digits.reverse.dropWhile (· == '0')).reverse with
  | [] => ['0']
  | ds => ds

/-- A power of ten has a sign and at least two digits. -/
def exponentText (e : Int) : List Char :=
  let digits := Text.naturalText e.natAbs
  'e' :: (if e < 0 then '-' else '+') :: (if digits.length < 2 then '0' :: digits else digits)

def decimalText (d : Decimal) : List Char :=
  let all := Text.naturalText d.digits
  let lead := d.exponent + all.length - 1
  let digits := stripZeros all
  if -4 ≤ lead ∧ lead < 16 then
    if lead < 0 then
      '0' :: '.' :: List.replicate (-lead - 1).toNat '0' ++ digits
    else
      let whole := lead.toNat + 1
      let padded := digits ++ List.replicate (whole - digits.length) '0'
      let places := padded.drop whole
      padded.take whole ++ '.' :: (if places.isEmpty then ['0'] else places)
  else
    match digits with
    | [] => []
    | [c] => c :: exponentText lead
    | c :: cs => c :: '.' :: cs ++ exponentText lead

def magnitudeText (significand : Nat) (exponent : Int) : List Char :=
  if significand = 0 then ['0', '.', '0'] else decimalText (shortest significand exponent)

def text : Binary64 → List Char
  | nan => ['n', 'a', 'n']
  | infinite s => if s then ['-', 'i', 'n', 'f'] else ['i', 'n', 'f']
  | finite s m e => if s then '-' :: magnitudeText m e else magnitudeText m e

end ProofCarrying.Binary64
