import ProofCarrying.Config.Json
import ProofCarrying.Operand
import ProofCarrying.Text.Lowercase

/-! The tags of YAML 1.1: which one a plain scalar has, and which value a scalar of a tag. -/

namespace ProofCarrying.Yaml

/-- The tags that values are made from, those of the special keys, and all others. -/
inductive Tag
  | null
  | boolean
  | integer
  | float
  | text
  | list
  | mapping
  | merge
  | default
  | other
  deriving DecidableEq

namespace Tag

/-- The tags by their names below the common address. -/
def named (name : List Char) : Tag :=
  let table : List (String × Tag) :=
    [("null", null), ("bool", boolean), ("int", integer), ("float", float), ("str", text),
      ("seq", list), ("map", mapping), ("merge", merge), ("value", default)]
  ((table.find? fun e => e.1.toList == name).map (·.2)).getD other

def address : List Char :=
  "tag:yaml.org,2002:".toList

def ofUri (uri : List Char) : Tag :=
  if address.isPrefixOf uri then named (uri.drop address.length) else other

end Tag

namespace Scalar

def oneOf (words : List String) (s : List Char) : Bool :=
  words.any fun w => w.toList == s

def isNull (s : List Char) : Bool :=
  oneOf ["", "~", "null", "Null", "NULL"] s

def isBoolean (s : List Char) : Bool :=
  oneOf ["yes", "Yes", "YES", "no", "No", "NO", "true", "True", "TRUE", "false", "False",
    "FALSE", "on", "On", "ON", "off", "Off", "OFF"] s

def unsigned : List Char → List Char
  | '+' :: s => s
  | '-' :: s => s
  | s => s

/-- Digits of the given kind and underscores, at least one. -/
def isRun (digit : Char → Bool) (s : List Char) : Bool :=
  !s.isEmpty && s.all fun c => digit c || c == '_'

/-- Digits and underscores that begin with a digit. -/
def isDigits : List Char → Bool
  | [] => false
  | c :: cs => c.isDigit && cs.all fun d => d.isDigit || d == '_'

/-- A part of a number of base 60: one digit, or two of which the first is at most five. -/
def isSixtieth : List Char → Bool
  | [c] => c.isDigit
  | [c, d] => '0' ≤ c && c ≤ '5' && d.isDigit
  | _ => false

/-- Whole parts of base 60: at least two, the first of which is any number. -/
def isSexagesimal (first : List Char → Bool) (parts : List (List Char)) : Bool :=
  match parts with
  | p :: q :: qs => first p && (q :: qs).all isSixtieth
  | _ => false

def isInteger (s : List Char) : Bool :=
  match unsigned s with
  | ['0'] => true
  | '0' :: 'b' :: ds => isRun (fun c => c == '0' || c == '1') ds
  | '0' :: 'x' :: ds => isRun (fun c => (Json.hexValue? c).isSome) ds
  | '0' :: ds => isRun (fun c => '0' ≤ c && c ≤ '7') ds
  | ds => isDigits ds || isSexagesimal isDigits (ds.splitOn ':')

/-- Nothing, or a signed power of ten. -/
def isPower : List Char → Bool
  | [] => true
  | e :: sign :: ds =>
    (e == 'e' || e == 'E') && (sign == '-' || sign == '+') && !ds.isEmpty && ds.all Char.isDigit
  | _ => false

/-- Whether a run of digits and underscores is followed by nothing or a power of ten. -/
def isFraction (s : List Char) : Bool :=
  isPower (s.dropWhile fun c => c.isDigit || c == '_')

/-- A float in base 60 has a point in its last part, with digits and underscores after it. -/
def isSexagesimalFloat (s : List Char) : Bool :=
  let whole := s.takeWhile (· != '.')
  match s.dropWhile (· != '.') with
  | '.' :: places =>
    isSexagesimal isDigits (whole.splitOn ':') && places.all fun c => c.isDigit || c == '_'
  | _ => false

/-- A float has a point; without digits before the point it has no sign. -/
def isFloat (s : List Char) : Bool :=
  oneOf [".nan", ".NaN", ".NAN"] s || oneOf [".inf", ".Inf", ".INF"] (unsigned s) ||
    (match s with
      | '.' :: c :: cs => c.isDigit && isFraction cs
      | _ => false) ||
    (let t := unsigned s
     let whole := t.takeWhile (· != '.')
     match t.dropWhile (· != '.') with
     | '.' :: places => isDigits whole && isFraction places
     | _ => false) ||
    isSexagesimalFloat (unsigned s)

/-- Digits of a date or a time, as many as one of the given numbers. -/
def isField (sizes : List Nat) (s : List Char) : Bool :=
  sizes.contains s.length && s.all Char.isDigit

/-- Cuts a text at the first character that satisfies `p`, which is left out. -/
def cut (p : Char → Bool) (s : List Char) : List Char × Option (List Char) :=
  match s.dropWhile (fun c => !p c) with
  | [] => (s, none)
  | _ :: rest => (s.takeWhile (fun c => !p c), some rest)

/-- The offset of a time from that of the prime meridian. -/
def isZone (s : List Char) : Bool :=
  match s.dropWhile (fun c => c == ' ' || c == '\t') with
  | [] => s.isEmpty
  | ['Z'] => true
  | sign :: rest =>
    (sign == '+' || sign == '-') &&
      (match cut (· == ':') rest with
        | (hours, none) => isField [1, 2] hours
        | (hours, some minutes) => isField [1, 2] hours && isField [2] minutes)

/-- Hours, minutes and seconds, parts of seconds, and a zone. -/
def isTime (s : List Char) : Bool :=
  match cut (· == ':') s with
  | (_, none) => false
  | (hours, some rest) =>
    match cut (· == ':') rest with
    | (_, none) => false
    | (minutes, some rest) =>
      let seconds := rest.take 2
      let after := rest.drop 2
      let zone :=
        match after with
        | '.' :: ds => ds.dropWhile Char.isDigit
        | ds => ds
      isField [1, 2] hours && isField [2] minutes && isField [2] seconds && isZone zone

/-- A date, or a date and a time. -/
def isTimestamp (s : List Char) : Bool :=
  match cut (· == '-') s with
  | (_, none) => false
  | (year, some rest) =>
    match cut (· == '-') rest with
    | (_, none) => false
    | (month, some rest) =>
      let day := rest.takeWhile Char.isDigit
      match rest.dropWhile Char.isDigit with
      | [] => isField [4] year && isField [2] month && isField [2] day
      | c :: cs =>
        isField [4] year && isField [1, 2] month && isField [1, 2] day &&
          (if c == 'T' || c == 't' then isTime cs
           else (c == ' ' || c == '\t') &&
             isTime (cs.dropWhile fun d => d == ' ' || d == '\t'))

/-- A line feed after the text of a scalar does not count. -/
def withoutNewline (s : List Char) : List Char :=
  if 1 < s.length ∧ s.getLast? = some '\n' then s.dropLast else s

/-- The tag of a plain scalar. Dates have one of the other tags: they are no plain data. -/
def plainTag (text : List Char) : Tag :=
  let s := withoutNewline text
  if isBoolean s then .boolean
  else if isFloat s then .float
  else if isInteger s then .integer
  else if s = ['<', '<'] then .merge
  else if isNull s then .null
  else if isTimestamp s then .other
  else if s = ['='] then .default
  else if oneOf ["!", "&", "*"] s then .other
  else .text

def tag (text : Text.CodePoints) : Tag :=
  match text.toChars? with
  | some s => plainTag s
  | none => .text

/-- A sign, and the rest of a number without its underscores. -/
def sign (text : List Char) : Except Fault (Bool × List Char) :=
  match text.filter (· != '_') with
  | [] => .error .emptyScalar
  | '-' :: s => .ok (true, s)
  | '+' :: s => .ok (false, s)
  | s => .ok (false, s)

/-- The value of a digit or a letter as a digit. -/
def radixDigit? (c : Char) : Option Nat :=
  match Text.digitValue? c with
  | some d => some d
  | none =>
    let n := c.toNat
    if 65 ≤ n ∧ n ≤ 90 then some (n - 55)
    else if 97 ≤ n ∧ n ≤ 122 then some (n - 87)
    else none

/-- The number of a row of digits in a base. -/
def radixNatural? (base : Nat) (s : List Char) : Option Nat :=
  if s.isEmpty then none
  else
    s.foldl
      (fun n c =>
        match n, radixDigit? c with
        | some n, some d => if d < base then some (base * n + d) else none
        | _, _ => none)
      (some 0)

/-- A zero and a letter may announce the base. -/
def withoutMark (mark : Char) : List Char → List Char
  | '0' :: c :: s => if c.toLower = mark then s else '0' :: c :: s
  | s => s

def radixInteger? (base : Nat) (mark : Char) (s : List Char) : Option Int :=
  match Text.trimBy Text.isPadding s with
  | '-' :: ds => (radixNatural? base (withoutMark mark ds)).map fun n => -(n : Int)
  | '+' :: ds => (radixNatural? base (withoutMark mark ds)).map Int.ofNat
  | ds => (radixNatural? base (withoutMark mark ds)).map Int.ofNat

/-- The number of parts in base 60, the most significant first. -/
def sexagesimal? (parts : List (List Char)) : Option Int :=
  parts.foldl
    (fun n p =>
      match n, Text.looseInteger? p with
      | some n, some d => some (60 * n + d)
      | _, _ => none)
    (some 0)

def magnitude? (s : List Char) : Option Int :=
  match s with
  | ['0'] => some 0
  | '0' :: 'b' :: ds => radixInteger? 2 'b' ds
  | '0' :: 'x' :: ds => radixInteger? 16 'x' ds
  | '0' :: _ => radixInteger? 8 'o' s
  | _ => if s.contains ':' then sexagesimal? (s.splitOn ':') else Text.looseInteger? s

def integer (text : List Char) : Except Fault Int := do
  let (negative, s) ← sign text
  if s.isEmpty then .error .emptyScalar
  else
    match magnitude? s with
    | some n => return if negative then -n else n
    | none => .error .notInteger

/-- The sum of numbers, each times the next power of 60 in floating point. -/
def weigh : Binary64 → Nat → List Binary64 → Except Fault Binary64
  | sum, _, [] => .ok sum
  | sum, base, d :: ds => do
    let b ← Binary64.nearest base
    weigh (sum.add (d.mul b)) (60 * base) ds

/-- Whether a text is the name of what is not a number. -/
def namesNan (text : List Char) : Bool :=
  match sign (Text.lowercase text) with
  | .ok (_, s) => s == ".nan".toList
  | .error _ => false

def floats? : List (List Char) → Option (List Binary64)
  | [] => some []
  | p :: ps =>
    match Binary64.ofText? p, floats? ps with
    | some x, some xs => some (x :: xs)
    | _, _ => none

def float (text : List Char) : Except Fault Binary64 := do
  let (negative, s) ← sign (Text.lowercase text)
  let x ←
    if s = ".inf".toList then pure (Binary64.infinite false)
    else if s = ".nan".toList then pure Binary64.nan
    else if s.contains ':' then
      match floats? (s.splitOn ':') with
      | some xs => weigh Binary64.zero 1 xs.reverse
      | none => .error .notNumber
    else
      match Binary64.ofText? s with
      | some x => pure x
      | none => .error .notNumber
  return if negative then x.neg else x

def boolean (text : List Char) : Except Fault Bool :=
  let s := Text.lowercase text
  if oneOf ["yes", "true", "on"] s then .ok true
  else if oneOf ["no", "false", "off"] s then .ok false
  else .error .unknownScalar

/-- Reads characters. A text that has others is none of those that are looked for. -/
def ofChars {α : Type} (read : List Char → Except Fault α) (otherwise : Fault)
    (text : Text.CodePoints) : Except Fault α :=
  match text.toChars? with
  | some s => read s
  | none => .error otherwise

def value (t : Tag) (text : Text.CodePoints) : Except Fault Datum :=
  match t with
  | .null => .ok .null
  | .boolean => (ofChars boolean .unknownScalar text).map .boolean
  | .integer => (ofChars integer .notInteger text).map .integer
  | .float => (ofChars float .notNumber text).map .float
  | .text => .ok (.text text)
  | _ => .error .malformedYaml

end Scalar

end ProofCarrying.Yaml
