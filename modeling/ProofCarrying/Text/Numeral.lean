import ProofCarrying.Text.Blank
import ProofCarrying.Text.Digit

/-! Integers as text: digits of any script, an optional sign, and single underscores
between digits when reading; plain ASCII digits when writing. -/

namespace ProofCarrying.Text

/-- A number of more digits is neither read nor written. -/
def digitLimit : Nat := 4300

/-- A text of one or more digits and nothing else. -/
def isDecimal (s : List Char) : Bool :=
  !s.isEmpty && s.all isDigit

/-- The number that digits denote, the most significant first. -/
def digitsValue (s : List Char) : Nat :=
  s.foldl (fun n c => 10 * n + (digitValue? c).getD 0) 0

/-- The digits of a text in which single underscores may stand between digits. -/
def ungroup : List Char → Option (List Char)
  | [] => none
  | c :: cs =>
    if isDigit c then
      match cs with
      | [] => some [c]
      | '_' :: ds => (ungroup ds).map (c :: ·)
      | d :: ds => (ungroup (d :: ds)).map (c :: ·)
    else none

def natural? (s : List Char) : Option Nat :=
  match ungroup s with
  | some ds => if ds.length ≤ digitLimit then some (digitsValue ds) else none
  | none => none

/-- The integer that a text denotes, with nothing around it. -/
def integer? : List Char → Option Int
  | '+' :: s => (natural? s).map Int.ofNat
  | '-' :: s => (natural? s).map fun n => -Int.ofNat n
  | s => (natural? s).map Int.ofNat

/-- The blanks that may surround a loose integer; the four unit separators may not. -/
def isPadding (c : Char) : Bool :=
  isBlank c && !(28 ≤ c.toNat && c.toNat ≤ 31)

/-- The integer that a text denotes, with blanks around it. -/
def looseInteger? (s : List Char) : Option Int :=
  integer? (trimBy isPadding s)

/-- The decimal digits of a number, without leading zeros. -/
def naturalText (n : Nat) : List Char :=
  Nat.toDigits 10 n

def integerText : Int → List Char
  | .ofNat n => naturalText n
  | .negSucc n => '-' :: naturalText (n + 1)

/-- A number with few enough digits to be written. -/
def isWritable (n : Int) : Bool :=
  n.natAbs < Nat.pow 10 digitLimit

theorem isWritable_natCast (n : Nat) : isWritable n = decide (n < Nat.pow 10 digitLimit) := rfl

/-- The least number that cannot be written. -/
theorem exists_pow_digitLimit :
    ∃ n : Nat, Nat.pow 10 digitLimit = n ∧ 0 < n ∧ isWritable n = false := by
  have hpos : ∀ k, 0 < Nat.pow 10 k := fun k => Nat.pow_pos (Nat.succ_pos 9)
  refine ⟨Nat.pow 10 digitLimit, rfl, hpos _, ?_⟩
  rw [isWritable_natCast]
  exact decide_eq_false (Nat.lt_irrefl _)

/-- There is no end to the multiples of a number. -/
theorem exists_dvd_not_writable {p : Nat} (h : 0 < p) :
    ∃ n : Nat, p ∣ n ∧ 0 < n ∧ isWritable n = false := by
  have hpos : ∀ k, 0 < Nat.pow 10 k := fun k => Nat.pow_pos (Nat.succ_pos 9)
  refine ⟨p * Nat.pow 10 digitLimit, Nat.dvd_mul_right p _, Nat.mul_pos h (hpos _), ?_⟩
  rw [isWritable_natCast]
  exact decide_eq_false (Nat.not_lt.mpr (Nat.le_mul_of_pos_left _ h))

def integerText? (n : Int) : Option (List Char) :=
  if isWritable n then some (integerText n) else none

end ProofCarrying.Text
