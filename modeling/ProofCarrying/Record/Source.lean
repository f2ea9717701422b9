import ProofCarrying.Action
import ProofCarrying.Text.Numeral

/-! Reading records line by line. A line ends with a line feed or with the text. -/

namespace ProofCarrying

/-- What is left to read. The text of a file may break off where it cannot be decoded. -/
structure Source where
  rest : List Char
  undecodable : Bool
  deriving DecidableEq

namespace Source

def ofText (s : List Char) : Source :=
  ⟨s, false⟩

/-- The first line, the line feed included. -/
def firstLine : List Char → List Char
  | [] => []
  | c :: cs => if c = '\n' then [c] else c :: firstLine cs

def afterLine : List Char → List Char
  | [] => []
  | c :: cs => if c = '\n' then cs else afterLine cs

/-- Takes the next line. At the end of a text that line is empty. -/
def line : Action Source (List Char) :=
  fun s =>
    if s.undecodable && !s.rest.contains '\n' then (.error .undecodable, s)
    else (.ok (firstLine s.rest), { s with rest := afterLine s.rest })

/-- Takes the next line without the blanks around it, of which something has to be left. -/
def record (label : String) : Action Source (List Char) := do
  let l ← line
  if l.isEmpty then .fail (.streamEnded label)
  else
    let r := Text.trim l
    if r.isEmpty then .fail (.emptyRecord label) else pure r

/-- Takes a record that is a number without a sign. -/
def number (label : String) : Action Source Nat := do
  let r ← record label
  if Text.isDecimal r then
    if r.length ≤ Text.digitLimit then pure (Text.digitsValue r)
    else .fail (.longNumeral r.length)
  else .fail (.notDecimal label r)

theorem firstLine_append_afterLine (s : List Char) : firstLine s ++ afterLine s = s := by
  induction s with
  | nil => rfl
  | cons c cs ih =>
    simp only [firstLine, afterLine]
    split
    · rfl
    · simp [ih]

end Source

end ProofCarrying
