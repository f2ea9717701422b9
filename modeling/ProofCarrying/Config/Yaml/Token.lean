import ProofCarrying.Config.Yaml.Text

/-! The tokens of YAML. The beginning and end of a collection in block style are tokens too:
they follow from the columns of what it holds. A key that is not marked as one is found when
the colon after it is.

A text that breaks the rules has tokens too, of which the last says what is wrong. -/

namespace ProofCarrying.Yaml

inductive Token
  | versionDirective (major : Nat)
  | handleDirective (handle address : List Char)
  | otherDirective
  | documentStart
  | documentEnd
  | blockSequence
  | blockMapping
  | blockEnd
  | flowSequence
  | flowSequenceEnd
  | flowMapping
  | flowMappingEnd
  | flowEntry
  | blockEntry
  | key
  | value
  | alias (name : List Char)
  | anchor (name : List Char)
  | tag (handle : Option (List Char)) (suffix : List Char)
  | scalar (text : Text.CodePoints) (plain : Bool)
  | broken (fault : Fault)
  deriving DecidableEq

/-- A place where a key may have begun: the number of tokens before it, where it stands, how
deep it is in brackets and braces, and whether nothing but a key may stand there. -/
structure KeyPlace where
  tokens : Nat
  index : Nat
  line : Nat
  column : Nat
  flow : Nat
  required : Bool

/-- Tokens found so far, and what decides about the next one: the depth in brackets and
braces, the columns of the open block collections, and the places of possible keys. -/
structure Lexer where
  cursor : Cursor
  tokens : Array Token
  flow : Nat
  indent : Int
  indents : List Int
  keyAllowed : Bool
  keys : List KeyPlace

namespace Lexer

def ofText (s : List Char) : Lexer where
  cursor := Cursor.ofText s
  tokens := #[]
  flow := 0
  indent := -1
  indents := []
  keyAllowed := true
  keys := []

def emit (l : Lexer) (t : Token) : Lexer :=
  { l with tokens := l.tokens.push t }

def forward (l : Lexer) (n : Nat) : Lexer :=
  { l with cursor := l.cursor.forward n }

/-- Moves past spaces, comments and line ends. After a line end a key may begin, except
within brackets and braces. -/
def toNext : Nat → Lexer → Lexer
  | 0, l => l
  | fuel + 1, l =>
    let c := l.cursor.skipSpaces.skipComment
    match c.lineBreak? with
    | none => { l with cursor := c }
    | some (_, d) => toNext fuel { l with cursor := d, keyAllowed := l.keyAllowed || l.flow = 0 }

/-- A key stands on one line and takes at most 1024 characters. -/
def isStale (c : Cursor) (k : KeyPlace) : Bool :=
  k.line != c.line || 1024 < c.index - k.index

def dropStale (l : Lexer) : Except Fault Lexer :=
  if l.keys.any fun k => isStale l.cursor k && k.required then .error .malformedYaml
  else .ok { l with keys := l.keys.filter fun k => !isStale l.cursor k }

def dropKey (l : Lexer) : Except Fault Lexer :=
  if l.keys.any fun k => k.flow == l.flow && k.required then .error .malformedYaml
  else .ok { l with keys := l.keys.filter fun k => k.flow != l.flow }

def saveKey (l : Lexer) : Except Fault Lexer :=
  if l.keyAllowed then do
    let l ← l.dropKey
    let c := l.cursor
    let required := l.flow = 0 && l.indent == c.column
    return { l with keys := ⟨l.tokens.size, c.index, c.line, c.column, l.flow, required⟩ :: l.keys }
  else .ok l

/-- Closes the block collections to the right of a column. -/
def unwind (column : Int) : List Int → Lexer → Lexer
  | [], l => l
  | i :: is, l =>
    if l.flow = 0 ∧ column < l.indent then
      unwind column is { l with indent := i, indents := is, tokens := l.tokens.push .blockEnd }
    else l

def unwindTo (l : Lexer) (column : Int) : Lexer :=
  unwind column l.indents l

/-- Opens a block collection at a column, if it lies to the right of the open ones. -/
def openBlock (l : Lexer) (column position : Nat) (t : Token) : Lexer :=
  if l.indent < column then
    { l with
      indents := l.indent :: l.indents
      indent := column
      tokens := l.tokens.insertIdxIfInBounds position t }
  else l

/-- A directive, or the separator of documents: it closes everything. -/
def documentLevel (l : Lexer) : Except Fault Lexer := do
  let l ← (l.unwindTo (-1)).dropKey
  return { l with keyAllowed := false }

def separator (l : Lexer) (t : Token) : Except Fault Lexer := do
  let l ← l.documentLevel
  return (l.forward 3).emit t

def versionNumber (c : Cursor) : Except Fault (Nat × Cursor) :=
  match c.rest.takeWhile Char.isDigit with
  | [] => .error .malformedYaml
  | ds =>
    if ds.length ≤ Text.digitLimit then .ok (Text.digitsValue ds, c.forward ds.length)
    else .error (.longNumeral ds.length)

def versionDirective (c : Cursor) : Except Fault (Token × Cursor) := do
  let (major, c) ← versionNumber c.skipSpaces
  match c.rest with
  | '.' :: _ => do
    let (_, c) ← versionNumber c.next
    if endsField c.rest then return (.versionDirective major, c) else .error .malformedYaml
  | _ => .error .malformedYaml

def handleDirective (c : Cursor) : Except Fault (Token × Cursor) := do
  let (h, c) ← handle c.skipSpaces
  match c.rest with
  | ' ' :: _ => do
    let (address, c) ← uri c.skipSpaces
    if endsField c.rest then return (.handleDirective h address, c) else .error .malformedYaml
  | _ => .error .malformedYaml

def directive (l : Lexer) : Except Fault Lexer := do
  let l ← l.documentLevel
  let (n, c) ← name l.cursor.next
  if !endsField c.rest then .error .malformedYaml
  else
    let (t, c) ←
      if n = "YAML".toList then versionDirective c
      else if n = "TAG".toList then handleDirective c
      else pure (Token.otherDirective, c.skipWhile fun x => !isBreak x)
    let c ← Block.endLine c
    return { l with cursor := c }.emit t

def openFlow (l : Lexer) (t : Token) : Except Fault Lexer := do
  let l ← l.saveKey
  return ({ l with flow := l.flow + 1, keyAllowed := true }.forward 1).emit t

/-- A bracket or brace that closes nothing is refused. -/
def closeFlow (l : Lexer) (t : Token) : Except Fault Lexer := do
  let l ← l.dropKey
  if l.flow = 0 then .error .malformedYaml
  else return ({ l with flow := l.flow - 1, keyAllowed := false }.forward 1).emit t

def flowEntry (l : Lexer) : Except Fault Lexer := do
  let l ← { l with keyAllowed := true }.dropKey
  return (l.forward 1).emit .flowEntry

/-- Opens a block collection here for a mark that stands where a key may. -/
def markBlock (l : Lexer) (t : Token) : Except Fault Lexer :=
  if l.flow = 0 then
    if l.keyAllowed then .ok (l.openBlock l.cursor.column l.tokens.size t)
    else .error .malformedYaml
  else .ok l

def blockEntry (l : Lexer) : Except Fault Lexer := do
  let l ← l.markBlock .blockSequence
  let l ← { l with keyAllowed := true }.dropKey
  return (l.forward 1).emit .blockEntry

def explicitKey (l : Lexer) : Except Fault Lexer := do
  let l ← l.markBlock .blockMapping
  let l ← { l with keyAllowed := l.flow = 0 }.dropKey
  return (l.forward 1).emit .key

/-- A colon. If a key may have begun before it, one has. -/
def value (l : Lexer) : Except Fault Lexer :=
  match l.keys.find? fun k => k.flow == l.flow with
  | some k =>
    let l := { l with
      keys := l.keys.filter fun k => k.flow != l.flow
      tokens := l.tokens.insertIdxIfInBounds k.tokens .key
      keyAllowed := false }
    let l := if l.flow = 0 then l.openBlock k.column k.tokens .blockMapping else l
    .ok ((l.forward 1).emit .value)
  | none => do
    let l ← l.markBlock .blockMapping
    let l ← { l with keyAllowed := l.flow = 0 }.dropKey
    return (l.forward 1).emit .value

def keyed (l : Lexer) (r : Except Fault (Token × Cursor)) : Except Fault Lexer := do
  let l ← l.saveKey
  let (t, c) ← r
  return { l with cursor := c, keyAllowed := false }.emit t

/-- A name after a mark, with nothing else after it. -/
def mark (f : List Char → Token) (c : Cursor) : Except Fault (Token × Cursor) := do
  let (n, c) ← name c.next
  let ends :=
    endsWord c.rest ||
      match c.rest with
      | x :: _ => "?:,]%@".toList.contains x || x == '\x7d' || x == '\x60'
      | [] => true
  if ends then return (f n, c) else .error .malformedYaml

/-- A tag: an address in angle brackets, an exclamation mark alone, or a handle and a
suffix. -/
def tag (c : Cursor) : Except Fault (Token × Cursor) := do
  let (t, c) ←
    match c.rest.drop 1 with
    | '<' :: _ => do
      let (u, c) ← uri (c.forward 2)
      match c.rest with
      | '>' :: _ => pure (Token.tag none u, c.next)
      | _ => .error .malformedYaml
    | rest =>
      if endsWord rest then pure (Token.tag none ['!'], c.next)
      else if (rest.takeWhile fun x => !(x == ' ' || isBreak x)).contains '!' then do
        let (h, c) ← handle c
        let (u, c) ← uri c
        pure (Token.tag (some h) u, c)
      else do
        let (u, c) ← uri c.next
        pure (Token.tag (some ['!']) u, c)
  if endsField c.rest then return (t, c) else .error .malformedYaml

def quoted (double : Bool) (c : Cursor) : Except Fault (Token × Cursor) := do
  let (text, c) ← Quoted.scan double c
  return (.scalar text false, c)

def block (l : Lexer) (folded : Bool) : Except Fault Lexer := do
  let l ← { l with keyAllowed := true }.dropKey
  let (text, c) ← Block.scan folded l.indent l.cursor
  return { l with cursor := c }.emit (.scalar (.ofChars text) false)

def plain (l : Lexer) : Except Fault Lexer := do
  let l ← l.saveKey
  let c := l.cursor
  let r := Plain.run (l.flow != 0) (l.indent + 1) (c.rest.length + 1) [] false c
  return { l with cursor := r.cursor, keyAllowed := r.newLine }.emit
    (.scalar (.ofChars r.text) true)

/-- Whether a plain text can begin with a character. -/
def beginsPlain (flow : Bool) (x : Char) (rest : List Char) : Bool :=
  let special := "-?:,[]#&*!|>'%@".toList.contains x || x == '\x7b' || x == '\x7d' ||
    x == '\x22' || x == '\x60'
  !(isBlankOrBreak x || special) ||
    (!endsWord rest && (x == '-' || (!flow && (x == '?' || x == ':'))))

def token (l : Lexer) (x : Char) (rest : List Char) : Except Fault Lexer :=
  let flow := l.flow != 0
  let s := x :: rest
  if x == '%' && l.cursor.column == 0 then l.directive
  else if l.cursor.column == 0 && isSeparator '-' s then l.separator .documentStart
  else if l.cursor.column == 0 && isSeparator '.' s then l.separator .documentEnd
  else if x == '[' then l.openFlow .flowSequence
  else if x == '\x7b' then l.openFlow .flowMapping
  else if x == ']' then l.closeFlow .flowSequenceEnd
  else if x == '\x7d' then l.closeFlow .flowMappingEnd
  else if x == ',' then l.flowEntry
  else if x == '-' && endsWord rest then l.blockEntry
  else if x == '?' && (flow || endsWord rest) then l.explicitKey
  else if x == ':' && (flow || endsWord rest) then l.value
  else if x == '*' then l.keyed (mark .alias l.cursor)
  else if x == '&' then l.keyed (mark .anchor l.cursor)
  else if x == '!' then l.keyed (tag l.cursor)
  else if x == '|' && !flow then l.block false
  else if x == '>' && !flow then l.block true
  else if x == '\x27' then l.keyed (quoted false l.cursor)
  else if x == '\x22' then l.keyed (quoted true l.cursor)
  else if beginsPlain flow x rest then l.plain
  else .error .malformedYaml

/-- Takes the next token, or closes all collections where the text ends. -/
def step (l : Lexer) : Except Fault (Lexer × Bool) := do
  let l ← (toNext (l.cursor.rest.length + 1) l).dropStale
  let l := l.unwindTo l.cursor.column
  match l.cursor.rest with
  | [] => do
    let l ← l.documentLevel
    return (l, true)
  | x :: rest => do
    let l ← l.token x rest
    return (l, false)

/-- How many tokens are settled: those before the first that may still turn out to be a key. -/
def settled (l : Lexer) : Nat :=
  (l.keys.filter fun k => !isStale l.cursor k).foldl (fun n k => Nat.min n k.tokens) l.tokens.size

/-- All tokens of a text. Each of them takes at least one character. What is wrong comes after
the tokens that were settled by then. -/
def run : Nat → Lexer → List Token
  | 0, _ => [.broken .malformedYaml]
  | fuel + 1, l =>
    match l.step with
    | .error f => l.tokens.toList.take l.settled ++ [.broken f]
    | .ok (l, true) => l.tokens.toList
    | .ok (l, false) => run fuel l

end Lexer

namespace Token

/-- The tokens of a text. A byte order mark before them is passed over. -/
def ofText (s : List Char) : List Token :=
  let l := Lexer.ofText s
  Lexer.run (s.length + 2) (if s.head? = some '\ufeff' then l.forward 1 else l)

end Token

end ProofCarrying.Yaml
