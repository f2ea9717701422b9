import ProofCarrying.Config.Json

/-! Places in a text, with their line and column. -/

namespace ProofCarrying.Yaml

structure Cursor where
  rest : List Char
  index : Nat
  line : Nat
  column : Nat

def isBreak (c : Char) : Bool :=
  c == '\n' || c == '\r' || c == '\u0085' || c == '\u2028' || c == '\u2029'

def isBlankOrBreak (c : Char) : Bool :=
  c == ' ' || c == '\t' || isBreak c

/-- Whether a text ends or a line does. -/
def endsLine : List Char → Bool
  | [] => true
  | c :: _ => isBreak c

/-- Whether a text ends, or a blank or the end of the line follows. -/
def endsWord : List Char → Bool
  | [] => true
  | c :: _ => isBlankOrBreak c

/-- As `endsWord`, but a tab does not count. -/
def endsField : List Char → Bool
  | [] => true
  | c :: _ => c == ' ' || isBreak c

/-- Three dashes or dots on their own separate documents. -/
def isSeparator (mark : Char) : List Char → Bool
  | a :: b :: c :: rest => a == mark && b == mark && c == mark && endsWord rest
  | _ => false

def separates (s : List Char) : Bool :=
  isSeparator '-' s || isSeparator '.' s

namespace Cursor

def ofText (s : List Char) : Cursor :=
  ⟨s, 0, 0, 0⟩

/-- Moves past one character. A carriage return and a line feed end one line together, and a
byte order mark takes no column. -/
def next (c : Cursor) : Cursor :=
  match c.rest with
  | [] => c
  | x :: rest =>
    if (isBreak x && x != '\r') || (x == '\r' && rest.head? != some '\n') then
      ⟨rest, c.index + 1, c.line + 1, 0⟩
    else if x == '\ufeff' then ⟨rest, c.index + 1, c.line, c.column⟩
    else ⟨rest, c.index + 1, c.line, c.column + 1⟩

def forward : Nat → Cursor → Cursor
  | 0, c => c
  | n + 1, c => forward n c.next

def skipWhile (p : Char → Bool) (c : Cursor) : Cursor :=
  c.forward (c.rest.takeWhile p).length

def skipSpaces (c : Cursor) : Cursor :=
  c.skipWhile (· == ' ')

def indentTo (n : Nat) (c : Cursor) : Cursor :=
  c.forward (((c.rest.take (n - c.column)).takeWhile (· == ' ')).length)

def skipComment (c : Cursor) : Cursor :=
  if c.rest.head? = some '#' then c.skipWhile (fun x => !isBreak x) else c

/-- Moves past the end of a line. Most line ends count as line feeds. -/
def lineBreak? (c : Cursor) : Option (Char × Cursor) :=
  match c.rest with
  | '\r' :: '\n' :: _ => some ('\n', c.forward 2)
  | x :: _ =>
    if x == '\u2028' || x == '\u2029' then some (x, c.next)
    else if isBreak x then some ('\n', c.next)
    else none
  | [] => none

/-- Moves past the end of a line, if there is one here. -/
def skipBreak (c : Cursor) : Cursor :=
  match c.lineBreak? with
  | some (_, d) => d
  | none => c

end Cursor

/-- Two line ends are joined by a space; further ones are kept, and so is a first one that is
no line feed. -/
def fold (first : Char) (more : List Char) : List Char :=
  if first != '\n' then first :: more
  else if more.isEmpty then [' ']
  else more

end ProofCarrying.Yaml
