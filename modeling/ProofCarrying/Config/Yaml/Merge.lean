import ProofCarrying.Config.Yaml.Node

/-! Merges in YAML documents: the entries of a mapping that is merged into another count as if
they came first in the other. -/

namespace ProofCarrying.Yaml.Graph

def content? (g : Graph) (place : Nat) : Option Content :=
  g[place]?.map (·.content)

def hasTag (g : Graph) (t : Tag) (place : Nat) : Bool :=
  g[place]?.any (·.tag == t)

def setTag (g : Graph) (t : Tag) (place : Nat) : Graph :=
  g.modify place fun n => { n with tag := t }

def entries (g : Graph) (place : Nat) : List (Nat × Nat) :=
  match g.content? place with
  | some (.mapping es) => es
  | _ => []

def setEntries (g : Graph) (place : Nat) (es : List (Nat × Nat)) : Graph :=
  g.modify place fun n => { n with content := .mapping es }

/-- The value of the first merge among entries, and the other entries. -/
def firstMerge? (g : Graph) : List (Nat × Nat) → Option (Nat × List (Nat × Nat))
  | [] => none
  | (k, v) :: es =>
    if g.hasTag .merge k then some (v, es)
    else (firstMerge? g es).map fun m => (m.1, (k, v) :: m.2)

/-- The mappings that a merge names: one, or those of a list. -/
def merged (g : Graph) (value : Nat) : Except Fault (List Nat) :=
  let isMapping (place : Nat) : Bool :=
    match g.content? place with
    | some (.mapping _) => true
    | _ => false
  match g.content? value with
  | some (.mapping _) => .ok [value]
  | some (.sequence items) => if items.all isMapping then .ok items else .error .malformedYaml
  | _ => .error .malformedYaml

/-- Puts entries in front of those of a mapping. The sign of the default key is a text then. -/
def enterFront (g : Graph) (place : Nat) (front : List (Nat × Nat)) : Graph :=
  let es := front ++ g.entries place
  es.foldl (fun g e => if g.hasTag .default e.1 then g.setTag .text e.1 else g)
    (g.setEntries place es)

/-- Takes the merges out of a mapping, and finds the entries that they bring, those of the last
mapping in a list first. Every round takes one merge out of the graph, which bounds the rounds. -/
def takeMerges : Nat → Nat → Graph → Except Fault (List (Nat × Nat) × Graph)
  | 0, _, _ => .error .malformedYaml
  | fuel + 1, place, g =>
    match g.firstMerge? (g.entries place) with
    | none => .ok ([], g)
    | some (value, rest) => do
      let places ← g.merged value
      let (front, g) ← places.foldlM
        (fun (front, g) p => do
          let (own, g) ← takeMerges fuel p g
          let g := g.enterFront p own
          return (g.entries p ++ front, g))
        (([] : List (Nat × Nat)), g.setEntries place rest)
      let (more, g) ← takeMerges fuel place g
      return (front ++ more, g)

def mergeCount (g : Graph) : Nat :=
  g.foldl
    (fun count n =>
      match n.content with
      | .mapping es => count + (es.filter fun e => g.hasTag .merge e.1).length
      | _ => count)
    0

def merge (g : Graph) (place : Nat) : Except Fault Graph := do
  let (front, g) ← takeMerges (g.mergeCount + 1) place g
  return g.enterFront place front

end ProofCarrying.Yaml.Graph
