/-! Code points: characters, and halves of pairs of 16-bit units, which are no characters.

A text that is given by the numbers of its units may hold a half on its own. -/

namespace ProofCarrying.Text

/-- The units from 0xD800 to 0xDFFF are halves. -/
inductive CodePoint
  | char (c : Char)
  | half (unit : Nat)
  deriving DecidableEq

namespace CodePoint

def toNat : CodePoint → Nat
  | char c => c.toNat
  | half unit => unit

def ofNat (n : Nat) : CodePoint :=
  if 0xD800 ≤ n ∧ n < 0xE000 then half n else char (Char.ofNat n)

def ofPair (high low : Nat) : CodePoint :=
  ofNat (0x10000 + (high - 0xD800) * 0x400 + (low - 0xDC00))

end CodePoint

abbrev CodePoints := List CodePoint

namespace CodePoints

def ofChars (s : List Char) : CodePoints :=
  s.map .char

/-- The characters of a text that has no halves. -/
def toChars? : CodePoints → Option (List Char)
  | [] => some []
  | .char c :: rest => (toChars? rest).map (c :: ·)
  | .half _ :: _ => none

theorem toChars?_ofChars (s : List Char) : toChars? (ofChars s) = some s := by
  induction s with
  | nil => rfl
  | cons c cs ih =>
    rw [ofChars] at ih
    simp [ofChars, toChars?, ih]

/-- Whether a text does not come after another, by the numbers of their code points. -/
def notAfter : CodePoints → CodePoints → Bool
  | [], _ => true
  | _ :: _, [] => false
  | c :: cs, d :: ds => if c = d then notAfter cs ds else c.toNat < d.toNat

end CodePoints

end ProofCarrying.Text
