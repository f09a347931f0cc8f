import HackToolchain.Source.Line
import HackToolchain.Text.Utf8

/-!
# Statements

A source text is a list of lines, and every line that is not skipped holds one statement: an address
load, a compute instruction or a label declaration. A statement keeps its place and the text of its
line without outer blanks, for diagnostics and listings. Columns are counted in that text.
-/

namespace HackToolchain

/-- What a statement does. -/
inductive Command where
  /-- Loads an address, given by a literal or a symbol. -/
  | addressLoad (operand : String)
  /-- Computes. -/
  | compute (fields : Fields)
  /-- Declares a label for the next instruction. -/
  | label (name : String)
  /-- Does nothing; such a statement is listed but never read from a source text. -/
  | remark
  deriving DecidableEq

/-- A command that takes a word of the program. -/
def Command.isInstruction : Command → Bool
  | addressLoad _ | compute _ => true
  | label _ | remark => false

/-- A command with its place and the text of its line. -/
structure Statement where
  location : Location
  source : String
  command : Command
  deriving DecidableEq

namespace Statement

/-- The command of a line without outer blanks; none if the line is skipped. -/
def commandOf (line : String) : Except Source.Fault (Option Command) :=
  match LineKind.of line with
  | .skip => .ok none
  | .addressLoad => (Source.operand line).map fun operand => some (.addressLoad operand)
  | .label => (Source.labelName line).map fun name => some (.label name)
  | .compute => (Source.fields line).map fun fields => some (.compute fields)

/-- The statement of a line; none if the line is skipped. -/
def ofLine (file : String) (number : Nat) (raw : String) : Except Diagnostic (Option Statement) :=
  let line := Text.trim raw
  let place : Location := ⟨file, number, 1⟩
  match commandOf line with
  | .ok command => .ok (command.map fun c => ⟨place, line, c⟩)
  | .error fault => .error (fault.diagnostic (some place) line)

/-- The statements of lines of which the first has the given number. -/
def ofLinesFrom (file : String) : Nat → List String → Except Diagnostic (List Statement)
  | _, [] => .ok []
  | number, raw :: rest =>
    match ofLine file number raw with
    | .error d => .error d
    | .ok statement =>
      match ofLinesFrom file (number + 1) rest with
      | .error d => .error d
      | .ok statements => .ok (statement.toList ++ statements)

/-- The statements of a list of lines. The first malformed line is reported. -/
def ofLines (file : String) (lines : List String) : Except Diagnostic (List Statement) :=
  ofLinesFrom file 1 lines

/-- The statements of a text. -/
def ofText (file text : String) : Except Diagnostic (List Statement) :=
  ofLines file (Text.lines text)

end Statement

/-! ### Files

A file is read block by block, and a line is yielded as soon as it is complete. A character that a
block cuts off is decoded with the next block, and so is a surrogate, although no further byte can
make it decodable. Any other undecodable sequence keeps the whole block from being read. It is
reported by its place in the bytes that are decoded together.
-/

/-- The number of bytes of a block. -/
def blockSize : Nat := 8192

/-- The blocks of the bytes of a file. The last one is not full; it may be empty. -/
def blocksOf (bytes : Text.Utf8.Bytes) : List Text.Utf8.Bytes :=
  (List.range (bytes.length / blockSize + 1)).map fun i =>
    (bytes.drop (i * blockSize)).take blockSize

/-- The first two bytes of a surrogate. -/
def isSurrogateHead (bytes : Text.Utf8.Bytes) : Bool :=
  match bytes with
  | [first, second] => first == 0xED && 0xA0 ≤ second && second ≤ 0xBF
  | _ => false

/-- The bytes behind the decoded characters, if they wait for the next block. -/
def leftOver (bytes : Text.Utf8.Bytes) (fault : Text.Utf8.Fault) : Option Text.Utf8.Bytes :=
  let behind := bytes.drop fault.position
  if fault.problem = .unexpectedEnd ∨ isSurrogateHead behind then some behind else none

/-- Decodes blocks, the first of them together with the bytes that are left from the one before. -/
def decodeBlocks (left : Text.Utf8.Bytes) : List Text.Utf8.Bytes → Text.Utf8.Reading
  | [] => Text.Utf8.decode left
  | block :: rest =>
    let bytes := left ++ block
    let reading := Text.Utf8.decode bytes
    match reading.fault with
    | none => (decodeBlocks [] rest).prepend reading.chars
    | some fault =>
      match leftOver bytes fault with
      | some left => (decodeBlocks left rest).prepend reading.chars
      -- The characters before the fault are in the same block, and are lost with it.
      | none => ⟨[], some fault⟩

/-- The lines that a file yields, and the fault that keeps it from yielding more. -/
structure SourceFile where
  lines : List String
  fault : Option Text.Utf8.Fault

/-- The lines of the bytes of a file. -/
def SourceFile.ofBytes (bytes : Text.Utf8.Bytes) : SourceFile :=
  let reading := decodeBlocks [] (blocksOf bytes)
  let lines := if reading.fault.isNone then Text.fileLines else Text.completeFileLines
  ⟨lines reading.chars, reading.fault⟩

end HackToolchain
