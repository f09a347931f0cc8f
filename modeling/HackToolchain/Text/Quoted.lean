import HackToolchain.Text.Printable

/-!
# Quoted text

Messages show a text of unknown content between quotes, so that blanks, controls and the ends of the
text can be seen. The quote is an apostrophe, unless the text holds an apostrophe and no double
quote. The quote and the backslash are escaped, tab, line feed and carriage return have letters, and
any other character that is not printable is written by its code point with two, four or eight
hexadecimal digits.
-/

namespace HackToolchain.Text

/-- The quote that a text is shown in. -/
def quoteMark (cs : List Char) : Char :=
  if cs.contains '\x27' && !cs.contains '"' then '"' else '\x27'

/-- A number in hexadecimal digits, with at least `width` of them. -/
def hexadecimal (width n : Nat) : List Char :=
  (Nat.toDigits 16 n).leftpad width '0'

/-- The written form of one character between the quotes `mark`. -/
def escape (mark c : Char) : List Char :=
  if c == mark || c == '\\' then ['\\', c]
  else if c == '\t' then ['\\', 't']
  else if c == '\n' then ['\\', 'n']
  else if c == '\r' then ['\\', 'r']
  else if isPrintable c then [c]
  else if c.toNat < 0x100 then '\\' :: 'x' :: hexadecimal 2 c.toNat
  else if c.toNat < 0x10000 then '\\' :: 'u' :: hexadecimal 4 c.toNat
  else '\\' :: 'U' :: hexadecimal 8 c.toNat

/-- The text between quotes. -/
def quote (s : String) : String :=
  let mark := quoteMark s.toList
  String.ofList (mark :: s.toList.flatMap (escape mark) ++ [mark])

end HackToolchain.Text
