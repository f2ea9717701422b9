import ProofCarrying.Config.Yaml.Cursor
import ProofCarrying.Fault
import ProofCarrying.Text.Utf8

/-! The text of scalars: plain, in quotes, and in blocks; and the parts of tags and
directives. -/

namespace ProofCarrying.Yaml

/-- Some text, and where it ends. -/
abbrev Span := Except Fault (List Char × Cursor)

/-- Some text that may hold halves of pairs, and where it ends. -/
abbrev WideSpan := Except Fault (Text.CodePoints × Cursor)

namespace Plain

/-- Characters that end a plain text within brackets or braces. -/
def isFlowMark (c : Char) : Bool :=
  c == ',' || c == '[' || c == ']' || c == '\x7b' || c == '\x7d'

/-- Whether a colon in front of a text ends a plain text. -/
def colonEnds (flow : Bool) (s : List Char) : Bool :=
  endsWord s || (flow && match s with | c :: _ => isFlowMark c | [] => false)

/-- The longest piece of plain text within a line and without blanks. -/
def piece (flow : Bool) : List Char → List Char
  | [] => []
  | c :: cs =>
    if isBlankOrBreak c then []
    else if c == ':' && colonEnds flow cs then []
    else if flow && (isFlowMark c || c == '?') then []
    else c :: piece flow cs

/-- What stands between two pieces of plain text: the text it counts as, where it ends, and
whether the line has ended. Before the separator of documents it counts as nothing. -/
structure Gap where
  text : List Char
  cursor : Cursor
  newLine : Bool

/-- The line ends from `before` on, and spaces, up to the next text. -/
def breaks (first : Char) : Nat → List Char → Cursor → Gap
  | 0, before, c => ⟨fold first before, c, true⟩
  | fuel + 1, before, c =>
    match c.rest with
    | ' ' :: _ => breaks first fuel before c.next
    | _ =>
      match c.lineBreak? with
      | none => ⟨fold first before, c, true⟩
      | some (b, d) =>
        if separates d.rest then ⟨[], d, true⟩ else breaks first fuel (before ++ [b]) d

def gap (c : Cursor) : Gap :=
  let spaces := c.rest.takeWhile (· == ' ')
  let d := c.skipSpaces
  match d.lineBreak? with
  | none => ⟨spaces, d, false⟩
  | some (b, e) => if separates e.rest then ⟨[], e, true⟩ else breaks b (e.rest.length + 1) [] e

/-- A plain text, where it ends, and whether a line ended after it. -/
structure Run where
  text : List Char
  cursor : Cursor
  newLine : Bool

/-- Pieces of plain text, each at the given column at least when it begins a line. -/
def run (flow : Bool) (indent : Int) : Nat → List Char → Bool → Cursor → Run
  | 0, _, newLine, c => ⟨[], c, newLine⟩
  | fuel + 1, before, newLine, c =>
    if c.rest.head? = some '#' then ⟨[], c, newLine⟩
    else
      match piece flow c.rest with
      | [] => ⟨[], c, newLine⟩
      | p =>
        let g := gap (c.forward p.length)
        if g.text.isEmpty || g.cursor.rest.head? == some '#' ||
            (!flow && decide ((g.cursor.column : Int) < indent)) then
          ⟨before ++ p, g.cursor, g.newLine⟩
        else
          let r := run flow indent fuel g.text g.newLine g.cursor
          ⟨before ++ p ++ r.text, r.cursor, r.newLine⟩

end Plain

namespace Quoted

/-- The characters that a letter after a backslash stands for. -/
def escapes : List (Char × Char) :=
  [('0', '\x00'), ('a', '\x07'), ('b', '\x08'), ('t', '\t'), ('\t', '\t'), ('n', '\n'),
    ('v', '\x0b'), ('f', '\x0c'), ('r', '\r'), ('e', '\x1b'), (' ', ' '), ('\x22', '\x22'),
    ('\x5c', '\x5c'), ('/', '/'), ('N', '\u0085'), ('_', '\u00a0'), ('L', '\u2028'),
    ('P', '\u2029')]

/-- How many hexadecimal digits follow a letter after a backslash. -/
def codeLength? (c : Char) : Option Nat :=
  if c = 'x' then some 2 else if c = 'u' then some 4 else if c = 'U' then some 8 else none

def codePoint (n : Nat) : Except Fault Text.CodePoint :=
  if 0x80000000 ≤ n then .error .outOfRange
  else if 0x110000 ≤ n then .error .notCharacter
  else .ok (.ofNat n)

/-- Blanks and line ends within quotes, up to the next text. -/
def breaks : Nat → Cursor → Span
  | 0, _ => .error .malformedYaml
  | fuel + 1, c =>
    if separates c.rest then .error .malformedYaml
    else
      let d := c.skipWhile fun x => x == ' ' || x == '\t'
      match d.lineBreak? with
      | none => .ok ([], d)
      | some (b, e) => do
        let (more, e) ← breaks fuel e
        return (b :: more, e)

/-- Blanks within quotes count as they are, unless the line ends. -/
def blanks (c : Cursor) : Span :=
  let run := c.rest.takeWhile fun x => x == ' ' || x == '\t'
  let d := c.forward run.length
  match d.rest with
  | [] => .error .malformedYaml
  | _ =>
    match d.lineBreak? with
    | none => .ok (run, d)
    | some (b, e) => do
      let (more, e) ← breaks (e.rest.length + 1) e
      return (fold b more, e)

/-- The text of quotes up to the closing one. Within single quotes two quotes stand for one;
within double quotes a backslash begins an escape. -/
def body (double : Bool) : Nat → Cursor → WideSpan
  | 0, _ => .error .malformedYaml
  | fuel + 1, c =>
    match c.rest with
    | [] => .error .malformedYaml
    | x :: rest =>
      if isBlankOrBreak x then do
        let (gap, d) ← blanks c
        let (more, d) ← body double fuel d
        return (.ofChars gap ++ more, d)
      else if !double && x == '\x27' then
        match rest with
        | '\x27' :: _ => do
          let (more, d) ← body double fuel (c.forward 2)
          return (.char '\x27' :: more, d)
        | _ => .ok ([], c.next)
      else if double && x == '\x22' then .ok ([], c.next)
      else if double && x == '\x5c' then
        let c := c.next
        match c.rest with
        | [] => .error .malformedYaml
        | e :: digits =>
          match escapes.lookup e with
          | some r => do
            let (more, d) ← body double fuel c.next
            return (.char r :: more, d)
          | none =>
            match codeLength? e with
            | some k =>
              match Json.hexNumber? k 0 digits with
              | none => .error .malformedYaml
              | some (n, _) => do
                let p ← codePoint n
                let (more, d) ← body double fuel (c.forward (k + 1))
                return (p :: more, d)
            | none =>
              match c.lineBreak? with
              | none => .error .malformedYaml
              | some (_, d) => do
                let (gap, d) ← breaks (d.rest.length + 1) d
                let (more, d) ← body double fuel d
                return (.ofChars gap ++ more, d)
      else do
        let (more, d) ← body double fuel c.next
        return (.char x :: more, d)

/-- A text in quotes, from its opening quote on. -/
def scan (double : Bool) (c : Cursor) : WideSpan :=
  body double (c.rest.length + 1) c.next

end Quoted

namespace Block

/-- What is done with the line ends after a block: all kept, all dropped, or one kept. -/
inductive Chomping
  | keep
  | strip
  | clip
  deriving DecidableEq

def chomping? (c : Char) : Option Chomping :=
  if c = '+' then some .keep else if c = '-' then some .strip else none

structure Header where
  chomping : Chomping
  increment : Option Nat
  cursor : Cursor

/-- A digit that says how far a block is indented; it is not zero. -/
def increment (c : Cursor) : Except Fault (Option Nat × Cursor) :=
  match c.rest with
  | x :: _ =>
    if x.isDigit then
      if x = '0' then .error .malformedYaml else .ok (some (x.toNat - 48), c.next)
    else .ok (none, c)
  | [] => .ok (none, c)

def indicators (c : Cursor) : Except Fault Header :=
  match c.rest.head?.bind chomping? with
  | some k => do
    let (n, c) ← increment c.next
    return ⟨k, n, c⟩
  | none => do
    let (n, c) ← increment c
    match n, c.rest.head?.bind chomping? with
    | some _, some k => return ⟨k, n, c.next⟩
    | _, _ => return ⟨.clip, n, c⟩

/-- The rest of a line that holds a comment at most. -/
def endLine (c : Cursor) : Except Fault Cursor :=
  let d := c.skipSpaces.skipComment
  if endsLine d.rest then .ok d.skipBreak else .error .malformedYaml

/-- The indicators of a block, up to the end of their line. -/
def header (c : Cursor) : Except Fault Header := do
  let h ← indicators c
  if endsField h.cursor.rest then
    let c ← endLine h.cursor
    return { h with cursor := c }
  else .error .malformedYaml

/-- The empty lines before a block and the greatest column among its first spaces. -/
def leading : Nat → Nat → Cursor → List Char × Nat × Cursor
  | 0, column, c => ([], column, c)
  | fuel + 1, column, c =>
    match c.rest with
    | ' ' :: _ =>
      let d := c.next
      leading fuel (if column < d.column then d.column else column) d
    | _ =>
      match c.lineBreak? with
      | none => ([], column, c)
      | some (b, d) =>
        let (more, column, d) := leading fuel column d
        (b :: more, column, d)

/-- Empty lines between lines of a block. -/
def breaks (indent : Nat) : Nat → Cursor → List Char × Cursor
  | 0, c => ([], c)
  | fuel + 1, c =>
    let c := c.indentTo indent
    match c.lineBreak? with
    | none => ([], c)
    | some (b, d) =>
      let (more, d) := breaks indent fuel d
      (b :: more, d)

def beginsBlank : List Char → Bool
  | c :: _ => c == ' ' || c == '\t'
  | [] => false

/-- The lines of a block from its first line on, before which come the line ends `before`.
Folding joins two lines that begin with text. -/
def lines (folded : Bool) (chomping : Chomping) (indent : Nat) :
    Nat → List Char → Cursor → List Char × Cursor
  | 0, before, c => (before, c)
  | fuel + 1, before, c =>
    let text := c.rest.takeWhile fun x => !isBreak x
    let d := c.forward text.length
    let (ending, d) :=
      match d.lineBreak? with
      | some (b, e) => ([b], e)
      | none => ([], d)
    let (more, e) := breaks indent (d.rest.length + 1) d
    if e.column = indent ∧ !e.rest.isEmpty then
      let joint :=
        if folded && ending == ['\n'] && !beginsBlank c.rest && !beginsBlank e.rest then
          if more.isEmpty then [' '] else []
        else ending
      let (tail, e) := lines folded chomping indent fuel (joint ++ more) e
      (before ++ text ++ tail, e)
    else
      let kept :=
        match chomping with
        | .keep => ending ++ more
        | .clip => ending
        | .strip => []
      (before ++ text ++ kept, e)

/-- A block, from its indicator on. Without an increment its first line sets the column. -/
def scan (folded : Bool) (parent : Int) (c : Cursor) : Span := do
  let h ← header c.next
  let least := (if parent + 1 < 1 then 1 else parent + 1).toNat
  let (before, indent, d) :=
    match h.increment with
    | some n =>
      let indent := least + n - 1
      let (more, d) := breaks indent (h.cursor.rest.length + 1) h.cursor
      (more, indent, d)
    | none =>
      let (more, column, d) := leading (h.cursor.rest.length + 1) 0 h.cursor
      (more, if least < column then column else least, d)
  if d.column = indent ∧ !d.rest.isEmpty then
    return lines folded h.chomping indent (d.rest.length + 1) before d
  else
    return (if h.chomping = .keep then before else [], d)

end Block

def isNameChar (c : Char) : Bool :=
  c.isAlphanum || c == '-' || c == '_'

def isUriChar (c : Char) : Bool :=
  isNameChar c || (";/?:@&=+$,.!~*'()[]%".toList.contains c)

def name (c : Cursor) : Span :=
  match c.rest.takeWhile isNameChar with
  | [] => .error .malformedYaml
  | n => .ok (n, c.forward n.length)

/-- The bytes of a row of escapes, each a percent sign and two digits. -/
def escapedBytes : Nat → Cursor → Except Fault (List UInt8 × Cursor)
  | 0, _ => .error .malformedYaml
  | fuel + 1, c =>
    match c.rest with
    | '%' :: digits =>
      match Json.hexNumber? 2 0 digits with
      | none => .error .malformedYaml
      | some (n, _) => do
        let (more, d) ← escapedBytes fuel (c.forward 3)
        return (UInt8.ofNat n :: more, d)
    | _ => .ok ([], c)

/-- The characters of an address, up to the first that cannot stand in one. -/
def uriFrom : Nat → Cursor → Span
  | 0, _ => .error .malformedYaml
  | fuel + 1, c =>
    match c.rest with
    | [] => .ok ([], c)
    | x :: _ =>
      if x == '%' then do
        let (bytes, d) ← escapedBytes (c.rest.length + 1) c
        let decoded := Text.Utf8.decode bytes
        if decoded.ending = .complete then
          let (more, d) ← uriFrom fuel d
          return (decoded.characters.map (·.1) ++ more, d)
        else .error .malformedYaml
      else if isUriChar x then do
        let (more, d) ← uriFrom fuel c.next
        return (x :: more, d)
      else .ok ([], c)

def uri (c : Cursor) : Span := do
  let (text, d) ← uriFrom (c.rest.length + 1) c
  if d.index = c.index then .error .malformedYaml else return (text, d)

/-- The handle of a tag: an exclamation mark alone before a space, or a name, possibly empty,
between two. -/
def handle (c : Cursor) : Span :=
  match c.rest with
  | '!' :: ' ' :: _ => .ok (['!'], c.next)
  | '!' :: rest =>
    let n := rest.takeWhile isNameChar
    match rest.drop n.length with
    | '!' :: _ => .ok ('!' :: n ++ ['!'], c.forward (n.length + 2))
    | _ => .error .malformedYaml
  | _ => .error .malformedYaml

end ProofCarrying.Yaml
