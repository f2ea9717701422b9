/-! Text as bytes in UTF-8. -/

namespace ProofCarrying.Text.Utf8

def encodeChar (c : Char) : List UInt8 :=
  let n := c.toNat
  if n < 0x80 then [UInt8.ofNat n]
  else if n < 0x800 then [UInt8.ofNat (0xC0 + n / 64), UInt8.ofNat (0x80 + n % 64)]
  else if n < 0x10000 then
    [UInt8.ofNat (0xE0 + n / 4096), UInt8.ofNat (0x80 + n / 64 % 64), UInt8.ofNat (0x80 + n % 64)]
  else
    [UInt8.ofNat (0xF0 + n / 262144), UInt8.ofNat (0x80 + n / 4096 % 64),
      UInt8.ofNat (0x80 + n / 64 % 64), UInt8.ofNat (0x80 + n % 64)]

def encode (s : List Char) : List UInt8 :=
  s.flatMap encodeChar

/-- A character of which some bytes have come: their bits, how many bytes follow, and the
range of the next. -/
structure Pending where
  bits : Nat
  following : Nat
  low : Nat
  high : Nat

inductive Step
  | character (c : Char)
  | more (p : Pending)
  | invalid

/-- The first byte of a character. The ranges leave out overlong forms and what lies beyond the
last character. -/
def first (b : Nat) : Step :=
  if b < 0x80 then .character (Char.ofNat b)
  else if b < 0xC2 then .invalid
  else if b < 0xE0 then .more ⟨b - 0xC0, 1, 0x80, 0xBF⟩
  else if b = 0xE0 then .more ⟨0, 2, 0xA0, 0xBF⟩
  else if b < 0xF0 then .more ⟨b - 0xE0, 2, 0x80, 0xBF⟩
  else if b = 0xF0 then .more ⟨0, 3, 0x90, 0xBF⟩
  else if b < 0xF4 then .more ⟨b - 0xF0, 3, 0x80, 0xBF⟩
  else if b = 0xF4 then .more ⟨4, 3, 0x80, 0x8F⟩
  else .invalid

/-- A further byte of a character. That a character would be half of a pair of 16-bit units
shows with its last byte. -/
def next (p : Pending) (b : Nat) : Step :=
  if b < p.low ∨ p.high < b then .invalid
  else
    let bits := p.bits * 64 + (b - 0x80)
    if 1 < p.following then .more ⟨bits, p.following - 1, 0x80, 0xBF⟩
    else if 0xD800 ≤ bits ∧ bits < 0xE000 then .invalid
    else .character (Char.ofNat bits)

/-- How a text ends: as a whole, within a character, or at a byte that cannot stand where it
does. -/
inductive Ending
  | complete
  | short
  | invalid (offset : Nat)
  deriving DecidableEq

/-- The characters of a text, each with the offset of the byte after it. -/
structure Decoded where
  characters : List (Char × Nat)
  ending : Ending

def decodeFrom : Nat → Option Pending → List UInt8 → Decoded
  | _, none, [] => ⟨[], .complete⟩
  | _, some _, [] => ⟨[], .short⟩
  | offset, pending, b :: bs =>
    match (match pending with | none => first b.toNat | some p => next p b.toNat) with
    | .character c =>
      let d := decodeFrom (offset + 1) none bs
      ⟨(c, offset + 1) :: d.characters, d.ending⟩
    | .more p => decodeFrom (offset + 1) (some p) bs
    | .invalid => ⟨[], .invalid offset⟩

def decode (bytes : List UInt8) : Decoded :=
  decodeFrom 0 none bytes

/-- Line feeds for carriage returns, and for carriage returns with line feeds. -/
def unifyNewlines : List Char → List Char
  | [] => []
  | '\r' :: '\n' :: cs => '\n' :: unifyNewlines cs
  | '\r' :: cs => '\n' :: unifyNewlines cs
  | c :: cs => c :: unifyNewlines cs

/-- The text of a file that is decoded as a whole. -/
def text? (bytes : List UInt8) : Option (List Char) :=
  let d := decode bytes
  match d.ending with
  | .complete => some (unifyNewlines (d.characters.map (·.1)))
  | _ => none

end ProofCarrying.Text.Utf8
