/-!
# Mnemonics of a compute instruction

A compute instruction has three fields: where the result goes, what is computed, and when to jump.
Each field has a table of mnemonics with their bits. In the tables of destinations and jumps the
mnemonic `null` stands for a field that is left out.

The first bit of a computation chooses between the address register and the memory word it points at
as second operand.
-/

namespace HackToolchain

/-- Mnemonics and their bits, in the order in which they are listed. -/
abbrev MnemonicTable := List (String × String)

namespace MnemonicTable

/-- The bits of a mnemonic. -/
def code? (table : MnemonicTable) (mnemonic : String) : Option String :=
  table.lookup mnemonic

/-- The bits and their mnemonics. -/
def decoding (table : MnemonicTable) : List (String × String) :=
  table.map Prod.swap

/-- The mnemonic of some bits. -/
def mnemonic? (table : MnemonicTable) (bits : String) : Option String :=
  table.decoding.lookup bits

end MnemonicTable

/-- The mnemonic of a field that is left out. -/
def nullMnemonic : String := "null"

/-- The computations. -/
def computations : MnemonicTable :=
  [("0", "0101010"), ("1", "0111111"), ("-1", "0111010"), ("D", "0001100"), ("A", "0110000"),
   ("M", "1110000"), ("!D", "0001101"), ("!A", "0110001"), ("!M", "1110001"), ("-D", "0001111"),
   ("-A", "0110011"), ("-M", "1110011"), ("D+1", "0011111"), ("A+1", "0110111"),
   ("M+1", "1110111"), ("D-1", "0001110"), ("A-1", "0110010"), ("M-1", "1110010"),
   ("D+A", "0000010"), ("D+M", "1000010"), ("D-A", "0010011"), ("D-M", "1010011"),
   ("A-D", "0000111"), ("M-D", "1000111"), ("D&A", "0000000"), ("D&M", "1000000"),
   ("D|A", "0010101"), ("D|M", "1010101")]

/-- The destinations. -/
def destinations : MnemonicTable :=
  [("null", "000"), ("M", "001"), ("D", "010"), ("MD", "011"), ("A", "100"), ("AM", "101"),
   ("AD", "110"), ("AMD", "111")]

/-- The jumps. -/
def jumps : MnemonicTable :=
  [("null", "000"), ("JGT", "001"), ("JEQ", "010"), ("JGE", "011"), ("JLT", "100"),
   ("JNE", "101"), ("JLE", "110"), ("JMP", "111")]

/-- The fields of a compute instruction. -/
inductive Field where
  | dest
  | comp
  | jump
  deriving DecidableEq

namespace Field

/-- The mnemonics of a field. -/
def table : Field → MnemonicTable
  | dest => destinations
  | comp => computations
  | jump => jumps

/-- The short name of a field. -/
def name : Field → String
  | dest => "dest"
  | comp => "comp"
  | jump => "jump"

/-- The field of a short name. -/
def ofName? (s : String) : Option Field :=
  [dest, comp, jump].find? fun f => f.name == s

/-- The word that messages use for a field. -/
def noun : Field → String
  | dest => "destination"
  | comp => "computation"
  | jump => "jump"

/-- The bits of a field; a mnemonic that is left out counts as `null`. -/
def code? (f : Field) (mnemonic : Option String) : Option String :=
  f.table.code? (mnemonic.getD nullMnemonic)

end Field

end HackToolchain
