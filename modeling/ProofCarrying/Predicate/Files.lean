import ProofCarrying.Predicate.Records
import ProofCarrying.RankOne.Records
import ProofCarrying.Storage

/-! Predicates in files. -/

namespace ProofCarrying.Predicate

variable {κ : Type} [ConstraintSystem κ]

/-- Writes a predicate to a file and makes the directories of its path. The file is emptied
first, so a predicate that cannot be written leaves the records before its fault. -/
def save (p : Predicate κ) (path : Path) : Action FileTree Unit :=
  fun tree =>
    match tree.makeDirectories [] path.parts.dropLast with
    | .error e => (.error e, tree)
    | .ok tree =>
      match tree.write path (Text.Utf8.encode (Record.renderWritable p.records)) with
      | .error e => (.error e, tree)
      | .ok tree => (p.encode.map fun _ => (), tree)

/-- How the constraint system of a file is to be read: with a given reader, or as a rank-one
system over the given field. -/
def reader? (field? : Option ScalarField) (readSystem? : Option (Action Source κ))
    (readRankOne : ScalarField → Action Source κ) : Except Fault (Action Source κ) :=
  match readSystem?, field? with
  | some r, _ => .ok r
  | none, some F => .ok (readRankOne F)
  | none, none => .error .readerRequired

/-- Reads a predicate from a file. Without any way to read the constraint system the file is
not opened. -/
def load (tree : FileTree) (path : Path) (field? : Option ScalarField)
    (readSystem? : Option (Action Source κ)) (readRankOne : ScalarField → Action Source κ) :
    Except Fault (Predicate κ) := do
  let r ← reader? field? readSystem? readRankOne
  let bytes ← tree.read path
  (read r field? (Source.ofBytes bytes)).1

end ProofCarrying.Predicate
