import HackToolchain.CommandLine.Report
import HackToolchain.Symbol.File

/-!
# The disassembler as a tool

The tool disassembles the lines of one file and prints the instructions, or the lines of the listing
with addresses and words, or writes them to a file. A symbol file may give names to addresses.
Nothing is printed or written unless all words that are asked for can be decoded.

An input file whose bytes are no text breaks the run off before the tool can report anything.
-/

namespace HackToolchain.DisassemblerTool

/-- The heading of complaints about a word. -/
def activity : String := "Disassembly"

/-- The values of the options. -/
structure Options where
  output : Option Path := none
  addresses : Bool := false
  symbols : Option Path := none
  count : Option Int := none
  verbose : Bool := false

/-- What the tool is asked to do. -/
structure Request extends Options where
  input : Path

/-- The text of a file. -/
def readText (d : Directory) (path : Path) : Except Failure String := do
  let bytes ← (d.read path.text).mapError Failure.directory
  (Text.Utf8.decodeAll bytes).mapError Failure.undecodableText

/-- The names that the symbol file of a request gives to addresses. -/
def readSymbols (r : Request) (d : Directory) : Except Failure SymbolMap :=
  match r.symbols with
  | none => .ok []
  | some path => do
    let text ← readText d path
    (SymbolMap.ofFileText text).mapError Failure.numeral

/-- The entries of the lines of the input. -/
def disassemble (r : Request) (d : Directory) (lines : List String) :
    Except Failure (List Disassembly.Entry) := do
  let symbols ← readSymbols r d
  (Disassembly.decodeWords symbols 0 r.count lines).mapError Failure.undecodableWord

/-- The lines that are printed or written for the entries. -/
def outputLines (r : Request) (entries : List Disassembly.Entry) : List String :=
  entries.map fun e => if r.addresses then e.line else e.text

/-- The run for a request whose input holds the given lines. -/
def performOn (printed : String → String) (r : Request) (d : Directory) (lines : List String) :
    Report :=
  let shown (texts : List String) := if r.verbose then texts.map printed else []
  let failed (f : Failure) := Report.failed printed (some activity) f.complaint d []
  match disassemble r d lines with
  | .error f => failed f []
  | .ok entries =>
    let greeting := "Input file: " ++ r.input.text ++ " (" ++ toString entries.length ++
      " instructions)"
    match r.output with
    | none => .success d ((outputLines r entries).map printed) (shown [greeting])
    | some path =>
      match d.write path.text (Text.closeLines (outputLines r entries)) with
      | .error fault => failed (.directory fault) (shown [greeting])
      | .ok d => .success d [] (shown [greeting, "Wrote " ++ path.text])

/-- The run for a request, which prints its lines as a library has it. An input that cannot be opened
is reported; one that is no text is not. -/
def perform (printed : String → String) (r : Request) (d : Directory) : Outcome :=
  match d.read r.input.text with
  | .error fault =>
    let line := "Error reading " ++ r.input.text ++ ": " ++ fault.message
    .finished ⟨2, [], [printed line], d⟩
  | .ok bytes =>
    match Text.Utf8.decodeAll bytes with
    | .error fault => .broken (.undecodableText fault)
    | .ok text => .finished (performOn printed r d (Text.lines text))

end HackToolchain.DisassemblerTool
