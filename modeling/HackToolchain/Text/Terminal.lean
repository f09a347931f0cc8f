/-!
# Terminal control sequences

A text that is printed to something other than a terminal loses its control sequences. A control
sequence is an escape character, an opening bracket, any number of digits, semicolons and question
marks, and a letter of the Latin alphabet; anything else that begins with an escape character is
plain text.
-/

namespace HackToolchain.Text

/-- A digit, semicolon or question mark inside a control sequence. -/
def isParameter (c : Char) : Bool :=
  c.isDigit || c == ';' || c == '?'

/-- The number of characters that form a control sequence together with the escape character before
them; none if they do not complete one. -/
def sequenceLength? : List Char → Option Nat
  | '[' :: cs =>
    match cs.dropWhile isParameter with
    | c :: _ => if c.isAlpha then some ((cs.takeWhile isParameter).length + 2) else none
    | [] => none
  | _ => none

/-- The characters outside control sequences, once `hidden` characters have been passed over. -/
def plainAfter : Nat → List Char → List Char
  | _, [] => []
  | hidden + 1, _ :: cs => plainAfter hidden cs
  | 0, c :: cs =>
    if c = '\x1b' then
      match sequenceLength? cs with
      | some hidden => plainAfter hidden cs
      | none => c :: plainAfter 0 cs
    else c :: plainAfter 0 cs

/-- The text without its control sequences. -/
def plain (s : String) : String :=
  String.ofList (plainAfter 0 s.toList)

end HackToolchain.Text
