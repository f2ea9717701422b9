import ProofCarrying.Config.Keys
import ProofCarrying.Config.Yaml.Document
import ProofCarrying.Storage
import ProofCarrying.Text.Lowercase

/-! Configuration files in JSON or YAML, whose root is a mapping. -/

namespace ProofCarrying.Config

inductive Format
  | json
  | yaml
  deriving DecidableEq

namespace Format

/-- The format of files with a suffix in small letters. -/
def ofSuffix (suffix : List Char) : Except Fault Format :=
  if suffix = ".json".toList then .ok json
  else if suffix = ".yaml".toList ∨ suffix = ".yml".toList then .ok yaml
  else .error (.unsupportedSuffix suffix)

def read : Format → List Char → Except Fault Document
  | json => fun text => do
    let d ← Json.read text
    return ⟨d, #[]⟩
  | yaml => Yaml.read

end Format

/-- The root mapping of a file. The suffix is looked at before the file is. -/
def load (tree : FileTree) (path : Path) : Except Fault Section := do
  let format ← Format.ofSuffix (Text.lowercase path.suffix)
  let bytes ← tree.read path
  match Text.Utf8.text? bytes with
  | none => .error .undecodable
  | some text =>
    let d ← format.read text
    match d.root.resolve d.store with
    | .mapping m => return ⟨m, d.store⟩
    | _ => .error .rootNotMapping

end ProofCarrying.Config
