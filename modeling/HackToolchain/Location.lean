/-!
# Places in a source text

A place is a file name, a line and a column. Lines and columns count from one; the column zero says
that no column is known.
-/

namespace HackToolchain

/-- A place in a source text. -/
structure Location where
  file : String
  line : Int
  column : Int
  deriving DecidableEq

namespace Location

/-- The place as messages write it. -/
def text (l : Location) : String :=
  l.file ++ ":" ++ toString l.line ++ ":" ++ toString l.column

/-- The numbers that the place shows, in the order in which they are written. -/
def numbers (l : Location) : List Int :=
  [l.line, l.column]

/-- The same line at another column. -/
def atColumn (l : Location) (column : Int) : Location :=
  { l with column := column }

end Location

end HackToolchain
