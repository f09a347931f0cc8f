import HackToolchain.Program.Generation
import HackToolchain.Text.Lines
import HackToolchain.Text.Padding

/-!
# Texts of a program

A program is written as three texts: the machine code, one word a line; the listing, which shows the
words beside the source and then the symbols; and the symbol file, which other tools read. The last
two name the symbols that the program made itself, in the order of their names.
-/

namespace HackToolchain

/-- A line of a character that is repeated. -/
def ruler (c : Char) (length : Nat) : String :=
  String.ofList (List.replicate length c)

/-- The line of a statement in a listing: the address and the word are left blank for a statement
that is no instruction. -/
def ListingLine.text (l : ListingLine) : String :=
  let number := Text.alignRight 4 (toString l.location.line)
  let code :=
    match l.word with
    | some word => Text.alignRight 5 (toString l.address) ++ "   " ++ word
    | none => Text.spaces (5 + 3 + 16)
  code ++ "  " ++ number ++ "  " ++ l.source

/-- The line of a symbol in a listing. -/
def Symbol.listingLine (s : Symbol) : String :=
  Text.alignLeft 20 s.name ++ " = " ++ Text.alignRight 5 (toString s.address) ++ "  (" ++
    s.kind.name ++ ")"

/-- The line of a symbol in a symbol file. -/
def Symbol.fileLine (s : Symbol) : String :=
  s.name ++ " " ++ toString s.address ++ " " ++ s.kind.name

namespace Program

/-- The symbols that the program made itself, in the order of their names. -/
def listedSymbols (p : Program) : List Symbol :=
  SymbolTable.sorted p.symbols.own

/-- The text of the machine code. -/
def codeText (p : Program) : String :=
  Text.closeLines p.words

/-- The lines above the statements of a listing. -/
def listingHead : List String :=
  ["Hack Assembler Listing", ruler '=' 60, "", " ROM   Word              Line  Source",
    ruler '-' 60]

/-- The lines between the statements and the symbols of a listing. -/
def symbolHead : List String :=
  ["", "Symbol Table", ruler '-' 30]

/-- The text of the listing, without a final line feed. -/
def listingText (p : Program) : String :=
  Text.joinLines
    (listingHead ++ p.listing.map ListingLine.text ++ symbolHead ++
      p.listedSymbols.map Symbol.listingLine)

/-- The comment at the top of a symbol file. -/
def symbolFileHead : List String :=
  ["# Symbol table", "# Generated by hackasm"]

/-- The text of the symbol file. -/
def symbolText (p : Program) : String :=
  Text.closeLines (symbolFileHead ++ p.listedSymbols.map Symbol.fileLine)

end Program

end HackToolchain
