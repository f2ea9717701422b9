import ProofCarrying.Datum
import ProofCarrying.Fault
import ProofCarrying.Number.Reading

/-! Reading JSON. Besides the standard's values there are the two infinities and what is not a
number, by name. Of a repeated key the last value counts. -/

namespace ProofCarrying.Json

def isSpace (c : Char) : Bool :=
  c == ' ' || c == '\t' || c == '\n' || c == '\r'

def skip (s : List Char) : List Char :=
  s.dropWhile isSpace

/-- The rest of a text after a word that it begins with. -/
def after? : List Char → List Char → Option (List Char)
  | [], s => some s
  | c :: cs, d :: ds => if c = d then after? cs ds else none
  | _ :: _, [] => none

def hexValue? (c : Char) : Option Nat :=
  let n := c.toNat
  if 48 ≤ n ∧ n ≤ 57 then some (n - 48)
  else if 65 ≤ n ∧ n ≤ 70 then some (n - 55)
  else if 97 ≤ n ∧ n ≤ 102 then some (n - 87)
  else none

/-- A number of exactly `k` hexadecimal digits, and the rest. -/
def hexNumber? : Nat → Nat → List Char → Option (Nat × List Char)
  | 0, n, s => some (n, s)
  | _ + 1, _, [] => none
  | k + 1, n, c :: cs =>
    match hexValue? c with
    | some d => hexNumber? k (16 * n + d) cs
    | none => none

/-- What a character after a backslash stands for, other than a hexadecimal number. -/
def escaped? (c : Char) : Option Char :=
  if c = '\x22' ∨ c = '\x5c' ∨ c = '/' then some c
  else if c = 'b' then some '\x08'
  else if c = 'f' then some '\x0c'
  else if c = 'n' then some '\n'
  else if c = 'r' then some '\r'
  else if c = 't' then some '\t'
  else none

/-- A code point given by its number in one or two units of 16 bits. A unit that is half of a
pair may stand alone. -/
def unit? (s : List Char) : Option (Text.CodePoint × List Char) :=
  match hexNumber? 4 0 s with
  | none => none
  | some (n, rest) =>
    if 0xD800 ≤ n ∧ n < 0xDC00 then
      match rest with
      | '\x5c' :: 'u' :: more =>
        match hexNumber? 4 0 more with
        | none => none
        | some (m, others) =>
          if 0xDC00 ≤ m ∧ m < 0xE000 then some (.ofPair n m, others) else some (.half n, rest)
      | _ => some (.half n, rest)
    else some (.ofNat n, rest)

/-- The text up to the closing quote, and the rest. The first argument bounds the number of
characters. -/
def string : Nat → List Char → Except Fault (Text.CodePoints × List Char)
  | 0, _ => .error .malformedJson
  | _, [] => .error .malformedJson
  | fuel + 1, c :: cs =>
    if c = '\x22' then .ok ([], cs)
    else if c.toNat < 32 then .error .malformedJson
    else if c = '\x5c' then
      match cs with
      | [] => .error .malformedJson
      | 'u' :: ds =>
        match unit? ds with
        | none => .error .malformedJson
        | some (u, rest) => do
          let (text, rest) ← string fuel rest
          return (u :: text, rest)
      | d :: ds =>
        match escaped? d with
        | none => .error .malformedJson
        | some e => do
          let (text, rest) ← string fuel ds
          return (.char e :: text, rest)
    else do
      let (text, rest) ← string fuel cs
      return (.char c :: text, rest)

/-- The digits before the point: a zero alone, or digits that do not begin with one. -/
def whole? : List Char → Option (List Char × List Char)
  | [] => none
  | c :: cs =>
    if c = '0' then some (['0'], cs)
    else if c.isDigit then
      some (c :: cs.takeWhile Char.isDigit, cs.dropWhile Char.isDigit)
    else none

/-- A point with digits after it. -/
def places : List Char → List Char × List Char
  | '.' :: c :: cs =>
    if c.isDigit then
      ('.' :: c :: cs.takeWhile Char.isDigit, cs.dropWhile Char.isDigit)
    else ([], '.' :: c :: cs)
  | s => ([], s)

/-- A power of ten. -/
def power (s : List Char) : List Char × List Char :=
  match s with
  | e :: cs =>
    if e = 'e' ∨ e = 'E' then
      let (sign, ds) :=
        match cs with
        | '+' :: ds => (['+'], ds)
        | '-' :: ds => (['-'], ds)
        | ds => ([], ds)
      let digits := ds.takeWhile Char.isDigit
      if digits.isEmpty then ([], s) else (e :: sign ++ digits, ds.dropWhile Char.isDigit)
    else ([], s)
  | [] => ([], [])

/-- A number without a point and a power of ten is an integer. -/
def number (s : List Char) : Except Fault (Datum × List Char) :=
  let (sign, t) := match s with | '-' :: t => (['-'], t) | t => ([], t)
  match whole? t with
  | none => .error .malformedJson
  | some (digits, t) =>
    let (fraction, t) := places t
    let (exponent, t) := power t
    if fraction.isEmpty && exponent.isEmpty then
      match Text.integer? (sign ++ digits) with
      | some n => .ok (.integer n, t)
      | none => .error (.longNumeral digits.length)
    else
      match Binary64.ofText? (sign ++ digits ++ fraction ++ exponent) with
      | some x => .ok (.float x, t)
      | none => .error .malformedJson

def names : List (List Char × Datum) :=
  [("null".toList, .null), ("true".toList, .boolean true), ("false".toList, .boolean false),
    ("NaN".toList, .float .nan), ("Infinity".toList, .float (.infinite false)),
    ("-Infinity".toList, .float (.infinite true))]

def named? (s : List Char) : List (List Char × Datum) → Option (Datum × List Char)
  | [] => none
  | (name, d) :: rest =>
    match after? name s with
    | some t => some (d, t)
    | none => named? s rest

mutual

/-- A value at the very beginning of a text. The first argument bounds the depth. -/
def value : Nat → List Char → Except Fault (Datum × List Char)
  | 0, _ => .error .malformedJson
  | fuel + 1, s =>
    match s with
    | '\x22' :: cs => do
      let (text, rest) ← string (cs.length + 1) cs
      return (.text text, rest)
    | '[' :: cs =>
      match skip cs with
      | ']' :: rest => .ok (.list [], rest)
      | t => do
        let (items, rest) ← items fuel t
        return (.list items, rest)
    | '\x7b' :: cs =>
      match skip cs with
      | '\x7d' :: rest => .ok (.mapping [], rest)
      | t => do
        let (entries, rest) ← members fuel t
        return (.mapping (Datum.ofEntries entries), rest)
    | _ =>
      match named? s names with
      | some r => .ok r
      | none => number s

def items : Nat → List Char → Except Fault (List Datum × List Char)
  | 0, _ => .error .malformedJson
  | fuel + 1, s => do
    let (d, rest) ← value fuel s
    match skip rest with
    | ']' :: rest => return ([d], rest)
    | ',' :: rest => do
      let (ds, rest) ← items fuel (skip rest)
      return (d :: ds, rest)
    | _ => .error .malformedJson

def members : Nat → List Char → Except Fault (List (Datum × Datum) × List Char)
  | 0, _ => .error .malformedJson
  | fuel + 1, s =>
    match s with
    | '\x22' :: cs => do
      let (key, rest) ← string (cs.length + 1) cs
      match skip rest with
      | ':' :: rest => do
        let (d, rest) ← value fuel (skip rest)
        match skip rest with
        | '\x7d' :: rest => return ([(.text key, d)], rest)
        | ',' :: rest => do
          let (es, rest) ← members fuel (skip rest)
          return ((.text key, d) :: es, rest)
        | _ => .error .malformedJson
      | _ => .error .malformedJson
    | _ => .error .malformedJson

end

def read (s : List Char) : Except Fault Datum := do
  let (d, rest) ← value (2 * s.length + 2) (skip s)
  if (skip rest).isEmpty then return d else .error .malformedJson

end ProofCarrying.Json
