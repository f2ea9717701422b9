import ProofCarrying.Config.Yaml.Schema
import ProofCarrying.Config.Yaml.Token

/-! The nodes of a YAML document, from its tokens.

Nodes are known by their places, in the order in which they begin. An alias is the place of its
anchor, so several nodes can share one, and a node can hold itself. -/

namespace ProofCarrying.Yaml

inductive Content
  | scalar (text : Text.CodePoints)
  | sequence (items : List Nat)
  | mapping (entries : List (Nat × Nat))

structure Node where
  tag : Tag
  content : Content

abbrev Graph := Array Node

namespace Node

/-- What is left to read, the addresses of tag handles, the places of anchors, and the nodes
that have begun. -/
structure Reading where
  tokens : List Token
  handles : List (List Char × List Char)
  anchors : List (List Char × Nat)
  nodes : Graph

namespace Reading

def drop (r : Reading) : Reading :=
  { r with tokens := r.tokens.tail }

def begin (tag : Tag) (content : Content) (r : Reading) : Nat × Reading :=
  (r.nodes.size, { r with nodes := r.nodes.push ⟨tag, content⟩ })

def complete (place : Nat) (content : Content) (r : Reading) : Reading :=
  { r with nodes := r.nodes.modify place fun n => { n with content := content } }

/-- Where nothing is written there is an empty plain scalar. -/
def nothing (r : Reading) : Nat × Reading :=
  r.begin .null (.scalar [])

/-- Whether the next token is one of those given. The end of the tokens is none of them. -/
def at? (r : Reading) (ts : List Token) : Bool :=
  match r.tokens with
  | t :: _ => ts.contains t
  | [] => false

/-- Why no node can be made of what follows. -/
def fault (r : Reading) : Fault :=
  match r.tokens with
  | .broken f :: _ => f
  | _ => .malformedYaml

end Reading

/-- What may stand in front of a node: an anchor and a tag, in either order. -/
structure Properties where
  anchor : Option (List Char)
  tag : Option (List Char)

def fullTag (r : Reading) (handle : Option (List Char)) (suffix : List Char) :
    Except Fault (List Char) :=
  match handle with
  | none => .ok suffix
  | some h =>
    match r.handles.lookup h with
    | some address => .ok (address ++ suffix)
    | none => .error .malformedYaml

def properties (r : Reading) : Except Fault (Properties × Reading) :=
  match r.tokens with
  | .anchor a :: .tag h s :: rest => do
    let t ← fullTag r h s
    return (⟨some a, some t⟩, { r with tokens := rest })
  | .tag h s :: .anchor a :: rest => do
    let t ← fullTag r h s
    return (⟨some a, some t⟩, { r with tokens := rest })
  | .anchor a :: rest => .ok (⟨some a, none⟩, { r with tokens := rest })
  | .tag h s :: rest => do
    let t ← fullTag r h s
    return (⟨none, some t⟩, { r with tokens := rest })
  | _ => .ok (⟨none, none⟩, r)

namespace Properties

/-- A lone exclamation mark is no tag of its own. -/
def ownTag? (p : Properties) : Option Tag :=
  match p.tag with
  | some ['!'] => none
  | some t => some (Tag.ofUri t)
  | none => none

/-- The tag of a scalar. Plain scalars and those with a lone exclamation mark have the tag of
what they look like; without either a scalar is a text. -/
def scalarTag (p : Properties) (text : Text.CodePoints) (plain : Bool) : Tag :=
  match p.ownTag? with
  | some t => t
  | none => if plain || p.tag.isSome then Scalar.tag text else .text

/-- Gives the next place to an anchor, unless it has one already. -/
def reserve (p : Properties) (r : Reading) : Except Fault Reading :=
  match r.tokens, p.anchor with
  | .broken f :: _, _ => .error f
  | _, none => .ok r
  | _, some a =>
    if (r.anchors.lookup a).isSome then .error .malformedYaml
    else .ok { r with anchors := (a, r.nodes.size) :: r.anchors }

/-- An anchor or a tag may stand in front of nothing. -/
def empty (p : Properties) (r : Reading) : Except Fault (Nat × Reading) :=
  if p.anchor.isSome || p.tag.isSome then .ok (r.begin (p.ownTag?.getD .null) (.scalar []))
  else .error .malformedYaml

/-- A sequence, by a reader of its items. -/
def sequence (p : Properties) (items : Reading → Except Fault (List Nat × Reading))
    (r : Reading) : Except Fault (Nat × Reading) := do
  let (place, r) := r.begin (p.ownTag?.getD .list) (.sequence [])
  let (ns, r) ← items r
  return (place, r.complete place (.sequence ns))

/-- A mapping, by a reader of its entries. -/
def mapping (p : Properties) (entries : Reading → Except Fault (List (Nat × Nat) × Reading))
    (r : Reading) : Except Fault (Nat × Reading) := do
  let (place, r) := r.begin (p.ownTag?.getD .mapping) (.mapping [])
  let (es, r) ← entries r
  return (place, r.complete place (.mapping es))

end Properties

mutual

/-- A node. In block style a collection may be one of blocks, and the value of a mapping may
also be a sequence that is not indented. The first argument bounds the depth. -/
def node (block indentless : Bool) : Nat → Reading → Except Fault (Nat × Reading)
  | 0, _ => .error .malformedYaml
  | fuel + 1, r =>
    match r.tokens with
    | .alias a :: _ =>
      match r.anchors.lookup a with
      | some place => .ok (place, r.drop)
      | none => .error .malformedYaml
    | _ => do
      let (p, r) ← properties r
      let r ← p.reserve r
      match r.tokens with
      | .scalar text plain :: _ => return r.drop.begin (p.scalarTag text plain) (.scalar text)
      | .flowSequence :: _ => p.sequence (flowItems fuel true) r.drop
      | .flowMapping :: _ => p.mapping (flowEntries fuel true) r.drop
      | t :: _ =>
        if indentless && t == .blockEntry then p.sequence (indentlessItems fuel) r
        else if block && t == .blockSequence then p.sequence (blockItems fuel) r.drop
        else if block && t == .blockMapping then p.mapping (blockEntries fuel) r.drop
        else p.empty r
      | [] => p.empty r

def blockItems : Nat → Reading → Except Fault (List Nat × Reading)
  | 0, _ => .error .malformedYaml
  | fuel + 1, r =>
    match r.tokens with
    | .blockEntry :: _ => do
      let (n, r) ← orNothing [.blockEntry, .blockEnd] true false fuel r.drop
      let (ns, r) ← blockItems fuel r
      return (n :: ns, r)
    | .blockEnd :: _ => .ok ([], r.drop)
    | _ => .error r.fault

def indentlessItems : Nat → Reading → Except Fault (List Nat × Reading)
  | 0, _ => .error .malformedYaml
  | fuel + 1, r =>
    match r.tokens with
    | .blockEntry :: _ => do
      let (n, r) ← orNothing [.blockEntry, .key, .value, .blockEnd] true false fuel r.drop
      let (ns, r) ← indentlessItems fuel r
      return (n :: ns, r)
    | _ => .ok ([], r)

def blockEntries : Nat → Reading → Except Fault (List (Nat × Nat) × Reading)
  | 0, _ => .error .malformedYaml
  | fuel + 1, r =>
    match r.tokens with
    | .key :: _ => do
      let ends := [.key, .value, .blockEnd]
      let (k, r) ← orNothing ends true true fuel r.drop
      let (v, r) ← valueOf ends true fuel r
      let (es, r) ← blockEntries fuel r
      return ((k, v) :: es, r)
    | .blockEnd :: _ => .ok ([], r.drop)
    | _ => .error r.fault

/-- The items of a flow sequence up to its bracket. An item that is a key and a value is a
mapping of one entry. -/
def flowItems : Nat → Bool → Reading → Except Fault (List Nat × Reading)
  | 0, _, _ => .error .malformedYaml
  | fuel + 1, first, r =>
    if r.at? [.flowSequenceEnd] then .ok ([], r.drop)
    else if !first && !r.at? [.flowEntry] then .error r.fault
    else
      let r := if first then r else r.drop
      if r.at? [.flowSequenceEnd] then .ok ([], r.drop)
      else do
        let (n, r) ←
          if r.at? [.key] then do
            let (e, r) ← flowEntry .flowSequenceEnd fuel r.drop
            pure (r.begin .mapping (.mapping [e]))
          else node false false fuel r
        let (ns, r) ← flowItems fuel false r
        return (n :: ns, r)

def flowEntries : Nat → Bool → Reading → Except Fault (List (Nat × Nat) × Reading)
  | 0, _, _ => .error .malformedYaml
  | fuel + 1, first, r =>
    if r.at? [.flowMappingEnd] then .ok ([], r.drop)
    else if !first && !r.at? [.flowEntry] then .error r.fault
    else
      let r := if first then r else r.drop
      if r.at? [.flowMappingEnd] then .ok ([], r.drop)
      else do
        let (e, r) ←
          if r.at? [.key] then flowEntry .flowMappingEnd fuel r.drop
          else do
            let (k, r) ← node false false fuel r
            let (v, r) := r.nothing
            pure ((k, v), r)
        let (es, r) ← flowEntries fuel false r
        return (e :: es, r)

/-- An entry in flow style, after the mark of its key. -/
def flowEntry (bracket : Token) : Nat → Reading → Except Fault ((Nat × Nat) × Reading)
  | 0, _ => .error .malformedYaml
  | fuel + 1, r => do
    let (k, r) ← orNothing [.value, .flowEntry, bracket] false false fuel r
    let (v, r) ← valueOf [.flowEntry, bracket] false fuel r
    return ((k, v), r)

/-- The value of an entry, which may be missing. -/
def valueOf (ends : List Token) (block : Bool) : Nat → Reading → Except Fault (Nat × Reading)
  | 0, _ => .error .malformedYaml
  | fuel + 1, r =>
    if r.at? [.value] then orNothing ends block block fuel r.drop else .ok r.nothing

/-- A node, unless one of the given tokens follows. -/
def orNothing (ends : List Token) (block indentless : Bool) :
    Nat → Reading → Except Fault (Nat × Reading)
  | 0, _ => .error .malformedYaml
  | fuel + 1, r => if r.at? ends then .ok r.nothing else node block indentless fuel r

end

def standardHandles : List (List Char × List Char) :=
  [(['!'], ['!']), (['!', '!'], Tag.address)]

def directives : Bool → List (List Char × List Char) → List Token →
    Except Fault (List (List Char × List Char) × List Token)
  | version, handles, .versionDirective major :: rest =>
    if version || major != 1 then .error .malformedYaml else directives true handles rest
  | version, handles, .handleDirective h address :: rest =>
    if (handles.lookup h).isSome then .error .malformedYaml
    else directives version ((h, address) :: handles) rest
  | version, handles, .otherDirective :: rest => directives version handles rest
  | _, handles, rest => .ok (handles, rest)

def document (explicit : Bool) (handles : List (List Char × List Char)) (tokens : List Token) :
    Except Fault (Nat × Reading) :=
  let r : Reading := ⟨tokens, handles ++ standardHandles, [], #[]⟩
  match tokens with
  | [] | .documentStart :: _ | .documentEnd :: _ | .versionDirective _ :: _
  | .handleDirective .. :: _ | .otherDirective :: _ =>
    if explicit then .ok r.nothing else .error .malformedYaml
  | _ => node true false (4 * tokens.length + 4) r

/-- What may come after the only document: its end, any number of times. -/
def ending : List Token → Except Fault Unit
  | [] => .ok ()
  | .documentEnd :: rest => ending rest
  | .broken f :: _ => .error f
  | _ => .error .malformedYaml

/-- The nodes of the only document and the place of its root, if there is a document. -/
def ofTokens (tokens : List Token) : Except Fault (Option (Graph × Nat)) :=
  match tokens with
  | [] => .ok none
  | .documentStart :: _ | .versionDirective _ :: _ | .handleDirective .. :: _
  | .otherDirective :: _ => do
    let (handles, rest) ← directives false [] tokens
    match rest with
    | .documentStart :: rest => do
      let (root, r) ← document true handles rest
      ending r.tokens
      return some (r.nodes, root)
    | .broken f :: _ => .error f
    | _ => .error .malformedYaml
  | _ => do
    let (root, r) ← document false [] tokens
    ending r.tokens
    return some (r.nodes, root)

end Node

end ProofCarrying.Yaml
