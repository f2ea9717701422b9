import ProofCarrying.Text.CodePoint
import ProofCarrying.Text.Printable

/-! Texts in quotes. -/

namespace ProofCarrying.Text

/-- The last `width` hexadecimal digits of a number, in small letters. -/
def hexDigits (width n : Nat) : List Char :=
  let digits := Nat.toDigits 16 n
  List.replicate (width - digits.length) '0' ++ digits

/-- The single quote, unless it would have to be escaped and the double quote would not. -/
def quoteMark (s : CodePoints) : Char :=
  if s.contains (.char '\x27') && !s.contains (.char '\x22') then '\x22' else '\x27'

/-- A character inside quotes: the backslash and the quote in use are escaped, and so is
whatever is not printable. -/
def escape (mark c : Char) : List Char :=
  if c = '\x5c' || c = mark then ['\x5c', c]
  else if c = '\n' then ['\x5c', 'n']
  else if c = '\r' then ['\x5c', 'r']
  else if c = '\t' then ['\x5c', 't']
  else if isPrintable c then [c]
  else if c.toNat < 0x100 then '\x5c' :: 'x' :: hexDigits 2 c.toNat
  else if c.toNat < 0x10000 then '\x5c' :: 'u' :: hexDigits 4 c.toNat
  else '\x5c' :: 'U' :: hexDigits 8 c.toNat

/-- A code point inside quotes. Halves of pairs are not printable. -/
def escapePoint (mark : Char) : CodePoint → List Char
  | .char c => escape mark c
  | .half unit => '\x5c' :: 'u' :: hexDigits 4 unit

def quoted (s : CodePoints) : List Char :=
  let mark := quoteMark s
  mark :: s.flatMap (escapePoint mark) ++ [mark]

/-- A byte inside quotes; bytes have printable forms in ASCII only. -/
def escapeByte (mark : Char) (b : UInt8) : List Char :=
  let c := Char.ofNat b.toNat
  if b < 128 then escape mark c else '\x5c' :: 'x' :: hexDigits 2 b.toNat

def quotedBytes (bytes : List UInt8) : List Char :=
  let mark := quoteMark (bytes.map fun b => .char (Char.ofNat b.toNat))
  'b' :: mark :: bytes.flatMap (escapeByte mark) ++ [mark]

def quote (s : List Char) : String :=
  String.ofList (quoted (CodePoints.ofChars s))

end ProofCarrying.Text
