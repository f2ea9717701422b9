import ProofCarrying.Record.Source
import ProofCarrying.Text.Utf8

/-! Files in a tree of directories. -/

namespace ProofCarrying

/-- A path from the root of the tree; the empty path is the root itself. -/
structure Path where
  parts : List (List Char)
  deriving DecidableEq

namespace Path

/-- Slashes stand between parts. Empty parts and single dots lead nowhere and are left out. -/
def ofText (s : List Char) : Path :=
  ⟨(s.splitOn '/').filter fun p => p != [] && p != ['.']⟩

def text (p : Path) : List Char :=
  if p.parts.isEmpty then ['.'] else ['/'].intercalate p.parts

/-- What stands from the last dot of a name on, unless that dot begins or ends the name. -/
def suffixOfName (name : List Char) : List Char :=
  let after := name.reverse.takeWhile (· != '.')
  let stem := (name.reverse.dropWhile (· != '.')).drop 1
  if stem.isEmpty || after.isEmpty then [] else '.' :: after.reverse

def suffix (p : Path) : List Char :=
  suffixOfName (p.parts.getLast?.getD [])

end Path

inductive Entry
  | directory
  | file (bytes : List UInt8)
  deriving DecidableEq

/-- What the paths below the root lead to. -/
structure FileTree where
  entries : List (List (List Char) × Entry)

namespace FileTree

def empty : FileTree :=
  ⟨[]⟩

def entry? (t : FileTree) (parts : List (List Char)) : Option Entry :=
  if parts.isEmpty then some .directory else t.entries.lookup parts

def put (t : FileTree) (parts : List (List Char)) (e : Entry) : FileTree :=
  ⟨(parts, e) :: t.entries⟩

/-- Two dots lead back to the directory above. -/
def isParent (part : List Char) : Bool :=
  part == ['.', '.']

/-- Where parts lead from a place. There is a way back from a directory only, and none from the
root. -/
def locate (t : FileTree) : List (List Char) → List (List Char) → Except Fault (List (List Char))
  | here, [] => .ok here
  | here, p :: ps =>
    if isParent p then
      if !here.isEmpty && t.entry? here == some .directory then locate t here.dropLast ps
      else .error .storage
    else locate t (here ++ [p]) ps

/-- Makes the directories of a path from a place on that are not there yet. -/
def makeDirectories (t : FileTree) (here : List (List Char)) :
    List (List Char) → Except Fault FileTree
  | [] => .ok t
  | p :: ps =>
    if isParent p then
      if here.isEmpty then .error .storage else makeDirectories t here.dropLast ps
    else
      let next := here ++ [p]
      match t.entry? next with
      | some .directory => makeDirectories t next ps
      | some (.file _) => .error .storage
      | none => makeDirectories (t.put next .directory) next ps

/-- Puts bytes into a file, whose directory has to be there. -/
def write (t : FileTree) (p : Path) (bytes : List UInt8) : Except Fault FileTree := do
  let parts ← t.locate [] p.parts
  match t.entry? parts.dropLast, t.entry? parts with
  | some .directory, some .directory => .error .storage
  | some .directory, _ => .ok (t.put parts (.file bytes))
  | _, _ => .error .storage

/-- Puts bytes into a file and makes its directories. -/
def store (t : FileTree) (p : Path) (bytes : List UInt8) : Except Fault FileTree := do
  let t ← t.makeDirectories [] p.parts.dropLast
  t.write p bytes

def read (t : FileTree) (p : Path) : Except Fault (List UInt8) := do
  let parts ← t.locate [] p.parts
  match t.entry? parts with
  | some (.file bytes) => .ok bytes
  | _ => .error .storage

end FileTree

namespace Source

/-- Files are decoded in blocks of this many bytes. -/
def blockSize : Nat := 8192

/-- A carriage return at the end waits for what follows it. -/
def withoutPending (s : List Char) : List Char :=
  if s.getLast? = some '\r' then s.dropLast else s

/-- The lines of a file. When a block cannot be decoded only the blocks before it can be read,
and a file that ends within a character breaks off at its end. -/
def ofBytes (bytes : List UInt8) : Source :=
  let d := Text.Utf8.decode bytes
  match d.ending with
  | .complete => ⟨Text.Utf8.unifyNewlines (d.characters.map (·.1)), false⟩
  | .short => ⟨Text.Utf8.unifyNewlines (withoutPending (d.characters.map (·.1))), true⟩
  | .invalid offset =>
    let decoded := d.characters.takeWhile (·.2 ≤ offset / blockSize * blockSize)
    ⟨Text.Utf8.unifyNewlines (withoutPending (decoded.map (·.1))), true⟩

end Source

end ProofCarrying
