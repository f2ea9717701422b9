/-! Binary floating-point numbers of 53 significant bits, in exact integer arithmetic. -/

namespace ProofCarrying

/-- A finite number is its significand times a power of two. -/
inductive Binary64
  | nan
  | infinite (negative : Bool)
  | finite (negative : Bool) (significand : Nat) (exponent : Int)
  deriving DecidableEq

namespace Binary64

def leastExponent : Int := -1074

def greatestExponent : Int := 971

def zero : Binary64 := finite false 0 leastExponent

/-- The quotient of two numbers to the nearest integer, a half to the even neighbour. -/
def roundHalfEven (num den : Nat) : Nat :=
  let q := num / den
  let r := num % den
  if 2 * r < den then q
  else if den < 2 * r then q + 1
  else q + q % 2

/-- Multiplies a quotient by a power of a base. -/
def scale (base num den : Nat) (e : Int) : Nat × Nat :=
  if 0 ≤ e then (num * base.pow e.toNat, den) else (num, den * base.pow (-e).toNat)

/-- The exponent of the greatest power of two that a positive quotient reaches. -/
def quotientLog (num den : Nat) : Int :=
  let l := (num.log2 : Int) - den.log2
  let (a, b) := scale 2 num den (-l)
  if b ≤ a then l else l - 1

/-- The number nearest to a quotient; an infinity where none is near enough. -/
def ofQuotient (negative : Bool) (num den : Nat) : Binary64 :=
  if num = 0 then finite negative 0 leastExponent
  else
    let l := quotientLog num den - 52
    let e := if l < leastExponent then leastExponent else l
    let (a, b) := scale 2 num den (-e)
    let s := roundHalfEven a b
    let (s, e) := if s = Nat.pow 2 53 then (Nat.pow 2 52, e + 1) else (s, e)
    if greatestExponent < e then infinite negative else finite negative s e

/-- The number nearest to `digits` times a power of ten. Far beyond the range of the format
the power itself need not be formed. -/
def ofDecimal (negative : Bool) (digits : Nat) (exponent : Int) : Binary64 :=
  if digits = 0 then finite negative 0 leastExponent
  else
    let top := exponent + (Nat.toDigits 10 digits).length
    if 400 < top then infinite negative
    else if top < -400 then finite negative 0 leastExponent
    else
      let (num, den) := scale 10 digits 1 exponent
      ofQuotient negative num den

def ofInt (n : Int) : Binary64 :=
  ofQuotient (n < 0) n.natAbs 1

/-- A finite number as a fraction. -/
def fraction (significand : Nat) (exponent : Int) : Nat × Nat :=
  scale 2 significand 1 exponent

/-- The integer next to a finite number in the direction of zero. -/
def truncate (negative : Bool) (significand : Nat) (exponent : Int) : Int :=
  let (num, den) := fraction significand exponent
  let n := ((num / den : Nat) : Int)
  if negative then -n else n

/-- The integer that a number is equal to, if there is one. -/
def toInt? : Binary64 → Option Int
  | finite negative significand exponent =>
    let (num, den) := fraction significand exponent
    if num % den = 0 then some (truncate negative significand exponent) else none
  | _ => none

def neg : Binary64 → Binary64
  | nan => nan
  | infinite s => infinite !s
  | finite s m e => finite (!s) m e

/-- The exact sum, rounded once. Opposite numbers add up to the positive zero. -/
def add : Binary64 → Binary64 → Binary64
  | nan, _ => nan
  | _, nan => nan
  | infinite s, infinite t => if s = t then infinite s else nan
  | infinite s, _ => infinite s
  | _, infinite t => infinite t
  | finite s m e, finite t n f =>
    let (a, b) := fraction m e
    let (c, d) := fraction n f
    let x := (if s then -(a : Int) else a) * d
    let y := (if t then -(c : Int) else c) * b
    let sum := x + y
    if sum = 0 then finite (s && t) 0 leastExponent
    else ofQuotient (sum < 0) sum.natAbs (b * d)

def sub (x y : Binary64) : Binary64 :=
  add x y.neg

/-- The exact product, rounded once. -/
def mul : Binary64 → Binary64 → Binary64
  | nan, _ => nan
  | _, nan => nan
  | infinite s, infinite t => infinite (s != t)
  | infinite s, finite t n _ => if n = 0 then nan else infinite (s != t)
  | finite s m _, infinite t => if m = 0 then nan else infinite (s != t)
  | finite s m e, finite t n f =>
    let (a, b) := fraction m e
    let (c, d) := fraction n f
    ofQuotient (s != t) (a * c) (b * d)

/-- Equality of numbers: the two zeros are one number, and what is not a number equals nothing. -/
def same : Binary64 → Binary64 → Bool
  | infinite s, infinite t => s == t
  | finite s m e, finite t n f =>
    (m == 0 && n == 0) || (s == t && m == n && e == f)
  | _, _ => false

end Binary64

end ProofCarrying
