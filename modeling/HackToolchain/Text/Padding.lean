/-!
# Padding

Columns of a listing are filled with spaces to a least width; a longer text is kept whole. Widths
count characters.
-/

namespace HackToolchain.Text

/-- The text at the right end of a column. -/
def alignRight (width : Nat) (s : String) : String :=
  String.ofList (s.toList.leftpad width ' ')

/-- The text at the left end of a column. -/
def alignLeft (width : Nat) (s : String) : String :=
  String.ofList (s.toList.rightpad width ' ')

/-- A text of `n` spaces. -/
def spaces (n : Nat) : String :=
  String.ofList (List.replicate n ' ')

end HackToolchain.Text
