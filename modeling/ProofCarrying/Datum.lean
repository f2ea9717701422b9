import ProofCarrying.Number.Shortest
import ProofCarrying.Text.Numeral
import ProofCarrying.Text.Quoted

/-! Plain data: what a configuration is made of.

A list or a mapping may stand in a store, and others then refer to its place. So several values
can share it, and it can hold itself. -/

namespace ProofCarrying

/-- The entries of a mapping stand in the order in which their keys first came. -/
inductive Datum
  | null
  | boolean (b : Bool)
  | integer (n : Int)
  | float (x : Binary64)
  | text (s : Text.CodePoints)
  | bytes (b : List UInt8)
  | list (items : List Datum)
  | tuple (items : List Datum)
  | mapping (entries : List (Datum × Datum))
  | shared (place : Nat)
  deriving Inhabited

namespace Datum

abbrev Store := Array Datum

/-- A value, or what stands at its place. -/
def resolve (store : Store) : Datum → Datum
  | shared place => store.getD place null
  | d => d

mutual

/-- Equality of keys. Truth values count as zero and one, and numbers are compared by value. -/
def sameKey : Datum → Datum → Bool
  | null, null => true
  | boolean a, boolean b => a == b
  | boolean a, integer n => a.toInt == n
  | boolean a, float x => x.toInt? == some a.toInt
  | integer n, boolean b => n == b.toInt
  | integer n, integer k => n == k
  | integer n, float x => x.toInt? == some n
  | float x, boolean b => x.toInt? == some b.toInt
  | float x, integer n => x.toInt? == some n
  | float x, float y => x.same y
  | text s, text t => s == t
  | bytes b, bytes c => b == c
  | tuple xs, tuple ys => sameKeys xs ys
  | _, _ => false

def sameKeys : List Datum → List Datum → Bool
  | [], [] => true
  | x :: xs, y :: ys => sameKey x y && sameKeys xs ys
  | _, _ => false

end

mutual

/-- Lists and mappings change, so they are no keys, nor is a tuple that holds one. -/
def isKey : Datum → Bool
  | list _ => false
  | mapping _ => false
  | shared _ => false
  | tuple items => areKeys items
  | _ => true

def areKeys : List Datum → Bool
  | [] => true
  | x :: xs => isKey x && areKeys xs

end

/-- Enters a value. A key that is there keeps its place and its form. -/
def insertBy {κ : Type} (same : κ → κ → Bool) (key : κ) (value : Datum) :
    List (κ × Datum) → List (κ × Datum)
  | [] => [(key, value)]
  | (k, v) :: rest =>
    if same k key then (k, value) :: rest else (k, v) :: insertBy same key value rest

def lookup (key : Datum) : List (Datum × Datum) → Option Datum
  | [] => none
  | (k, v) :: rest => if sameKey k key then some v else lookup key rest

/-- A mapping from its entries in order; the last value of a key counts. -/
def ofEntriesBy {κ : Type} (same : κ → κ → Bool) (entries : List (κ × Datum)) :
    List (κ × Datum) :=
  entries.foldl (fun m e => insertBy same e.1 e.2 m) []

def ofEntries : List (Datum × Datum) → List (Datum × Datum) :=
  ofEntriesBy sameKey

def commaSeparated (items : List (List Char)) : List Char :=
  [',', ' '].intercalate items

mutual

/-- The written form of a value, texts in quotes, where `expand` writes what is shared. A value
with a number of too many digits has none. -/
def writtenBy (expand : Nat → Option (List Char)) : Datum → Option (List Char)
  | null => some "None".toList
  | boolean b => some (if b then "True".toList else "False".toList)
  | integer n => Text.integerText? n
  | float x => some x.text
  | text s => some (Text.quoted s)
  | bytes b => some (Text.quotedBytes b)
  | list items => do
    let ws ← writtenItems expand items
    return '[' :: commaSeparated ws ++ [']']
  | tuple items => do
    match ← writtenItems expand items with
    | [w] => return '(' :: w ++ [',', ')']
    | ws => return '(' :: commaSeparated ws ++ [')']
  | mapping entries => do
    let ws ← writtenEntries expand entries
    return '\x7b' :: commaSeparated ws ++ ['\x7d']
  | shared place => expand place

def writtenItems (expand : Nat → Option (List Char)) : List Datum → Option (List (List Char))
  | [] => some []
  | x :: xs => do
    let w ← writtenBy expand x
    let ws ← writtenItems expand xs
    return w :: ws

def writtenEntries (expand : Nat → Option (List Char)) :
    List (Datum × Datum) → Option (List (List Char))
  | [] => some []
  | (k, v) :: rest => do
    let key ← writtenBy expand k
    let value ← writtenBy expand v
    let ws ← writtenEntries expand rest
    return (key ++ ':' :: ' ' :: value) :: ws

end

/-- What is written for a list or a mapping within itself. -/
def ellipsis : Datum → List Char
  | mapping _ => "\x7b...\x7d".toList
  | _ => "[...]".toList

/-- The written form of a value within what stands at the open places. A place is opened once
at a time, so the number of places bounds the depth. -/
def writtenWithin (store : Store) : Nat → List Nat → Datum → Option (List Char)
  | 0, _ => writtenBy fun _ => none
  | depth + 1, opened => writtenBy fun place =>
    let d := (shared place).resolve store
    if opened.contains place then some d.ellipsis
    else writtenWithin store depth (place :: opened) d

def written (store : Store) (d : Datum) : Option (List Char) :=
  writtenWithin store (store.size + 1) [] d

/-- The plain form of a key: a text as it is, all else as it is written. -/
def plain : Datum → Option Text.CodePoints
  | text s => some s
  | d => (d.written #[]).map Text.CodePoints.ofChars

end Datum

/-- A value and the store that it refers to. -/
structure Document where
  root : Datum
  store : Datum.Store

end ProofCarrying
