/-!
# Malformed lines

The ways in which a source line fails to have the shape of a statement, with the wording of each.
-/

namespace HackToolchain

/-- What is wrong with a line. -/
inductive Malformation where
  /-- Nothing follows the sign of an address load. -/
  | missingOperand
  /-- A label declaration is not closed. -/
  | unterminatedLabel
  /-- A label declaration holds no name. -/
  | emptyLabel
  /-- Nothing stands before the equals sign. -/
  | emptyDestination
  /-- Nothing stands where a computation should. -/
  | emptyComputation
  /-- Nothing follows the semicolon. -/
  | emptyJump
  /-- A second equals sign. -/
  | repeatedEquals
  /-- An equals sign behind the semicolon. -/
  | equalsAfterSemicolon
  /-- A second semicolon. -/
  | repeatedSemicolon
  /-- A shape that a caller describes in its own words. -/
  | described (detail : String) (hint : Option String)
  deriving DecidableEq

namespace Malformation

/-- The description of what is wrong. -/
def detail : Malformation → String
  | missingOperand => "missing operand after '@'"
  | unterminatedLabel => "unterminated label declaration"
  | emptyLabel => "empty label name"
  | emptyDestination => "empty destination field"
  | emptyComputation => "empty computation field"
  | emptyJump => "empty jump field"
  | repeatedEquals => "more than one '=' in instruction"
  | equalsAfterSemicolon => "'=' after ';' in instruction"
  | repeatedSemicolon => "more than one ';' in instruction"
  | described detail _ => detail

/-- The form that the line should have. -/
def hint : Malformation → Option String
  | missingOperand => none
  | unterminatedLabel => some "label declarations have the form (NAME)"
  | emptyLabel => none
  | described _ hint => hint
  | _ => some "compute instructions have the form dest=comp;jump"

end Malformation

end HackToolchain
