import ProofCarrying.Config.Yaml.Merge

/-! The value of a YAML document.

Values are made level by level, from the root on: a collection is filled after the values around
it are made, so of two faults the one nearer to the root counts. A node has one value, and a
collection stands in the store at the place of its node. -/

namespace ProofCarrying.Yaml

/-- The values of nodes that are made, what is filled of the collections, and the places of those
that are to be filled next, the last one first. -/
structure Making where
  nodes : Graph
  made : Array (Option Datum)
  store : Datum.Store
  waiting : List Nat

namespace Making

def ofGraph (g : Graph) : Making :=
  ⟨g, Array.replicate g.size none, Array.replicate g.size .null, []⟩

/-- The text of a scalar. A mapping may hold it under the default key. -/
def scalarText? (g : Graph) : Nat → Nat → Option Text.CodePoints
  | 0, _ => none
  | depth + 1, place =>
    match g.content? place with
    | some (.scalar s) => some s
    | some (.mapping es) =>
      match es.find? fun e => g.hasTag .default e.1 with
      | some e => scalarText? g depth e.2
      | none => none
    | _ => none

/-- The value of a node with a tag of no collection. -/
def scalar (g : Graph) (place : Nat) (t : Tag) : Except Fault Datum :=
  match scalarText? g (g.size + 1) place with
  | some s => Scalar.value t s
  | none => .error .malformedYaml

def keep (place : Nat) (d : Datum) (m : Making) : Making :=
  { m with made := m.made.setIfInBounds place (some d) }

/-- The value of a node. That of a collection is its place, and it is filled later. -/
def value (place : Nat) (m : Making) : Except Fault (Datum × Making) :=
  match m.made.getD place none, m.nodes[place]? with
  | some d, _ => .ok (d, m)
  | none, none => .error .malformedYaml
  | none, some n =>
    if n.tag = .list ∨ n.tag = .mapping then
      let d := Datum.shared place
      .ok (d, { m with waiting := place :: m.waiting }.keep place d)
    else do
      let d ← scalar m.nodes place n.tag
      return (d, m.keep place d)

def items : List Nat → Making → Except Fault (List Datum × Making)
  | [], m => .ok ([], m)
  | p :: ps, m => do
    let (d, m) ← m.value p
    let (ds, m) ← items ps m
    return (d :: ds, m)

/-- The entries of a mapping, each key with the place of its node. -/
def entries : List (Nat × Nat) → Making → Except Fault (List ((Nat × Datum) × Datum) × Making)
  | [], m => .ok ([], m)
  | (k, v) :: es, m => do
    let (key, m) ← m.value k
    if !key.isKey then .error .malformedYaml
    let (d, m) ← m.value v
    let (ds, m) ← entries es m
    return (((k, key), d) :: ds, m)

/-- Whether a node is what is not a number by its name. -/
def namesNan (g : Graph) (place : Nat) : Bool :=
  ((scalarText? g (g.size + 1) place).bind Text.CodePoints.toChars?).any Scalar.namesNan

/-- Equality of keys. What is not a number is equal to nothing, but the value of one node is one
key, and so is the one that has a name. -/
def sameKey (g : Graph) (a b : Nat × Datum) : Bool :=
  match a.2, b.2 with
  | .float .nan, .float .nan => a.1 == b.1 || (namesNan g a.1 && namesNan g b.1)
  | x, y => Datum.sameKey x y

def put (place : Nat) (d : Datum) (m : Making) : Making :=
  { m with store := m.store.setIfInBounds place d }

def fill (m : Making) (place : Nat) : Except Fault Making :=
  match m.nodes[place]? with
  | some ⟨.list, .sequence ps⟩ => do
    let (ds, m) ← m.items ps
    return m.put place (.list ds)
  | some ⟨.mapping, .mapping _⟩ => do
    let g ← m.nodes.merge place
    let (es, m) ← { m with nodes := g }.entries (g.entries place)
    return m.put place (.mapping ((Datum.ofEntriesBy (sameKey g) es).map fun e => (e.1.2, e.2)))
  | _ => .error .malformedYaml

/-- Fills all collections, level by level. Each is filled once, which bounds the levels. -/
def fillAll : Nat → Making → Except Fault Making
  | 0, _ => .error .malformedYaml
  | fuel + 1, m =>
    match m.waiting with
    | [] => .ok m
    | places => do
      let m ← places.reverse.foldlM fill { m with waiting := [] }
      fillAll fuel m

end Making

def Graph.document (g : Graph) (root : Nat) : Except Fault Document := do
  let (d, m) ← (Making.ofGraph g).value root
  let m ← m.fillAll (g.size + 1)
  return ⟨d, m.store⟩

def isAllowed (c : Char) : Bool :=
  let n := c.toNat
  n == 9 || n == 10 || n == 13 || (32 ≤ n && n ≤ 126) || n == 0x85 || (0xA0 ≤ n && n ≤ 0xFFFD) ||
    0x10000 ≤ n

/-- The value of a text; one without a document has none. -/
def read (s : List Char) : Except Fault Document := do
  if !s.all isAllowed then .error .malformedYaml
  match ← Node.ofTokens (Token.ofText s) with
  | some (g, root) => g.document root
  | none => return ⟨.null, #[]⟩

end ProofCarrying.Yaml
