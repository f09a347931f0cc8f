import HackToolchain.Instruction.Mnemonic
import HackToolchain.Location
import HackToolchain.Source.Malformation
import HackToolchain.Text.Lines
import HackToolchain.Text.Obstacle
import HackToolchain.Text.Padding

/-!
# Diagnostics

A diagnostic says why a source text cannot be assembled: a cause, and, once they are known, the
place and the text of the line. The cause is found by code that knows nothing of the source, so the
place is attached later, and only once.

A caller may place a fault on any line and far behind its end, and an address may have any size. A
message that would grow beyond what can be written is not produced; its obstacle is known instead.
-/

namespace HackToolchain

/-- Why a source text cannot be assembled. -/
inductive Cause where
  /-- A cause in the words of the caller. -/
  | general (detail : String) (hint : Option String)
  /-- A line without the shape of a statement. -/
  | malformed (shape : Malformation)
  /-- A text that is no mnemonic of its field, with the mnemonics most like it. -/
  | unknownMnemonic (field mnemonic : String) (similar : List String)
  /-- A symbol that is not bound. -/
  | unknownSymbol (name : String)
  /-- A symbol that is already bound to another address. -/
  | duplicateSymbol (name : String) (address existing : Int) (first : Option Location)
  /-- An address that does not fit below its limit. -/
  | addressRange (value maximum : Int)
  deriving DecidableEq

/-- The noun for a field of a given name; a name that belongs to no field stands for itself. -/
def fieldNoun (name : String) : String :=
  ((Field.ofName? name).map Field.noun).getD name

/-- How many similar mnemonics a hint lists. -/
def hintLength : Nat := 3

namespace Cause

/-- The description of a cause. -/
def detail : Cause → String
  | general detail _ => detail
  | malformed shape => shape.detail
  | unknownMnemonic field mnemonic _ => "unknown " ++ fieldNoun field ++ " '" ++ mnemonic ++ "'"
  | unknownSymbol name => "unknown symbol '" ++ name ++ "'"
  | duplicateSymbol name _ _ _ => "duplicate symbol '" ++ name ++ "'"
  | addressRange value maximum =>
    "address " ++ toString value ++ " is out of range (0 to " ++ toString maximum ++ ")"

/-- A suggestion for mending a cause. -/
def hint : Cause → Option String
  | general _ hint => hint
  | malformed shape => shape.hint
  | unknownMnemonic _ _ similar =>
    if similar.isEmpty then none
    else
      let shown := (similar.take hintLength).map fun s => "'" ++ s ++ "'"
      some ("did you mean " ++ ", ".intercalate shown ++ "?")
  | unknownSymbol _ => none
  | duplicateSymbol name _ existing first =>
    match first with
    | some place => some ("'" ++ name ++ "' was first defined at " ++ place.text)
    | none => some ("'" ++ name ++ "' is already bound to address " ++ toString existing)
  | addressRange _ _ => none

/-- The numbers that the description and the hint of a cause show. -/
def numbers : Cause → List Int
  | duplicateSymbol _ _ _ (some place) => place.numbers
  | duplicateSymbol _ _ existing none => [existing]
  | addressRange value maximum => [value, maximum]
  | _ => []

end Cause

/-- A cause with the place and the source line where it arose. -/
structure Diagnostic where
  cause : Cause
  location : Option Location
  sourceLine : Option String
  deriving DecidableEq

namespace Diagnostic

/-- A diagnostic without a place. -/
def ofCause (cause : Cause) : Diagnostic :=
  ⟨cause, none, none⟩

/-- Attaches a place and a source line to a diagnostic that has no place yet. -/
def locate (d : Diagnostic) (location : Option Location) (sourceLine : Option String) :
    Diagnostic :=
  match d.location with
  | some _ => d
  | none => { d with location := location, sourceLine := sourceLine }

/-- The number of spaces before a quoted source line. -/
def indent : Nat := 4

/-- The line that points at a column of the quoted source line. -/
def caretLine (column : Int) : String :=
  Text.spaces (indent + column - 1).toNat ++ "^"

/-- The lines that quote the source. A column that is not positive is not pointed at. -/
def excerpt (location : Option Location) (sourceLine : Option String) : List String :=
  match location, sourceLine with
  | some place, some line =>
    (Text.spaces indent ++ line) :: if 0 < place.column then [caretLine place.column] else []
  | _, _ => []

/-- The lines that repeat the hint; an empty hint is not shown. -/
def hintLines : Option String → List String
  | some hint => if hint.isEmpty then [] else ["hint: " ++ hint]
  | none => []

/-- The first line of a message. -/
def headline (d : Diagnostic) : String :=
  match d.location with
  | some place => place.text ++ ": error: " ++ d.cause.detail
  | none => "error: " ++ d.cause.detail

/-- The full text of a diagnostic. -/
def message (d : Diagnostic) : String :=
  Text.joinLines (d.headline :: excerpt d.location d.sourceLine ++ hintLines d.cause.hint)

/-- The numbers that a message shows: those of the cause, and then those of the place. -/
def numbers (d : Diagnostic) : List Int :=
  d.cause.numbers ++ (d.location.map Location.numbers).getD []

/-- What keeps the caret of an excerpt from being written, where `memory` characters fit in memory.
One that stands within the quoted line or directly behind it takes no more room than the line
itself. -/
def caretObstacle? (memory : Int) (location : Option Location) (sourceLine : Option String) :
    Option Text.Obstacle :=
  match location, sourceLine with
  | some place, some line =>
    if place.column ≤ line.toList.length + 1 then none
    else Text.spacesObstacle? memory (indent + place.column - 1)
  | _, _ => none

/-- A caret within its line or directly behind it can be written. -/
theorem caretObstacle?_eq_none {memory : Int} {place : Location} {line : String}
    (h : place.column ≤ line.toList.length + 1) :
    caretObstacle? memory (some place) (some line) = none := by
  simp [caretObstacle?, h]

/-- What keeps the message of a diagnostic from being written: one of its numbers, or the caret. -/
def obstacle? (memory : Int) (d : Diagnostic) : Option Text.Obstacle :=
  (d.numbers.findSome? Text.numberObstacle?).or (caretObstacle? memory d.location d.sourceLine)

end Diagnostic

/-- What keeps a place from being written. -/
def Location.obstacle? (l : Location) : Option Text.Obstacle :=
  l.numbers.findSome? Text.numberObstacle?

end HackToolchain
