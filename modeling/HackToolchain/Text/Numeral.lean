import HackToolchain.Text.Blank
import HackToolchain.Text.DecimalDigit
import HackToolchain.Text.Quoted

/-!
# Numerals

An integer is written with an optional sign and decimal digits, in which single underscores may
stand between digits. Blanks around it are ignored, except the information separators `U+001C` to
`U+001F`. A numeral of more than 4300 digits is refused, whatever its value, and an integer that
needs more digits is not written either.

A run of digits with a misplaced underscore is no numeral; otherwise its length is judged before the
text behind it.
-/

namespace HackToolchain.Text.Numeral

/-- Why a text is not read as an integer. -/
inductive Fault where
  /-- There are more digits than the limit allows. -/
  | tooLong (digits : Nat)
  /-- The text does not have the form of an integer. -/
  | malformed (text : String)
  deriving DecidableEq

/-- The largest number of digits that is read or written. -/
def digitLimit : Nat := 4300

/-- How much of a quoted text a message shows. -/
def shownLength : Nat := 200

/-- The wording of a fault. -/
def Fault.message : Fault → String
  | .tooLong digits =>
    "Exceeds the limit (" ++ toString digitLimit ++ " digits) for integer string conversion: " ++
      "value has " ++ toString digits ++ " digits; use sys.set_int_max_str_digits() " ++
      "to increase the limit"
  | .malformed text =>
    "invalid literal for int() with base 10: " ++
      String.ofList ((quote text).toList.take shownLength)

/-- Blanks that may surround a numeral. -/
def isMargin (c : Char) : Bool :=
  isBlank c && !(0x1C ≤ c.toNat && c.toNat ≤ 0x1F)

/-- The characters of which the middle of a numeral consists. -/
def isDigitOrMark (c : Char) : Bool :=
  c == '_' || (digitValue? c).isSome

/-- A run of digits and underscores that begins and ends with a digit and in which no two
underscores meet. -/
def isGrouped : List Char → Bool
  | [] => false
  | '_' :: _ => false
  | [_] => true
  | _ :: '_' :: cs => isGrouped cs
  | _ :: c :: cs => isGrouped (c :: cs)

/-- The value of a list of decimal digits. -/
def ofDigits (digits : List Nat) : Nat :=
  digits.foldl (fun value digit => 10 * value + digit) 0

/-- The sign of a numeral and what follows it. -/
def splitSign : List Char → Int × List Char
  | '+' :: cs => (1, cs)
  | '-' :: cs => (-1, cs)
  | cs => (1, cs)

/-- The integer that a text denotes. -/
def readInt (text : String) : Except Fault Int :=
  let (sign, body) := splitSign (trimWhile isMargin text.toList)
  let run := body.takeWhile isDigitOrMark
  let digits := run.filterMap digitValue?
  -- The length of the run is judged before the text behind it.
  if !isGrouped run then .error (.malformed text)
  else if digitLimit < digits.length then .error (.tooLong digits.length)
  else if run.length < body.length then .error (.malformed text)
  else .ok (sign * ofDigits digits)

/-- A text that consists of the digits `0` to `9`, at least one of them. -/
def isLiteral (text : String) : Bool :=
  !text.toList.isEmpty && text.toList.all isAsciiDigit

/-- The value of a literal. -/
def readLiteral (text : String) : Except Fault Nat :=
  if digitLimit < text.toList.length then .error (.tooLong text.toList.length)
  else .ok (Nat.ofDigitChars 10 text.toList 0)

/-- An integer that is written with no more digits than the limit allows. -/
def isWritable (n : Int) : Bool :=
  (Nat.toDigits 10 n.natAbs).length ≤ digitLimit

end HackToolchain.Text.Numeral
