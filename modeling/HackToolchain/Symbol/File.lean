import HackToolchain.Disassembly
import HackToolchain.Text.Lines
import HackToolchain.Text.Numeral

/-!
# Reading symbol files

A line of a symbol file holds a name, an address and a kind; what follows is ignored, as are blank
lines, comments that begin with a number sign, and lines with fewer fields. Only the variables name
addresses of data memory, so only they are read. The first name of an address is kept.
-/

namespace HackToolchain

namespace SymbolMap

/-- The map with a name for an address that has none yet. -/
def insertNew (m : SymbolMap) (address : Int) (name : String) : SymbolMap :=
  if (m.lookup address).isSome then m else m ++ [(address, name)]

/-- The name and the address text of a line that describes a variable. -/
def variableOf? (line : String) : Option (String × String) :=
  let line := Text.trim line
  if line.toList.head? = some '#' then none
  else match Text.fields line with
    | name :: address :: kind :: _ => if kind = "variable" then some (name, address) else none
    | _ => none

/-- The map with the variables of some lines. -/
def addLines (m : SymbolMap) : List String → Except Text.Numeral.Fault SymbolMap
  | [] => .ok m
  | line :: rest =>
    match variableOf? line with
    | none => addLines m rest
    | some (name, text) =>
      match Text.Numeral.readInt text with
      | .ok address => addLines (m.insertNew address name) rest
      | .error fault => .error fault

/-- The names that the text of a symbol file gives to addresses. -/
def ofFileText (text : String) : Except Text.Numeral.Fault SymbolMap :=
  addLines [] (Text.lines text)

end SymbolMap

end HackToolchain
