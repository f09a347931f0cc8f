import HackToolchain.Directory
import HackToolchain.Disassembly
import HackToolchain.Program.Generation

/-!
# Failures

Everything that an operation of the toolchain can fail with. Operations that a caller uses on their
own, on names and values that are given as text, on addresses and on words, are found here with the
failures of each.
-/

namespace HackToolchain

/-- What an operation fails with. -/
inductive Failure where
  /-- The source text is at fault. -/
  | diagnosed (d : Diagnostic)
  /-- A word is not disassembled. -/
  | undecodableWord (fault : Disassembly.Fault)
  /-- A text is no compute word. -/
  | undecodableFields (fault : Fields.DecodeFault)
  /-- A text is no acceptable integer. -/
  | numeral (fault : Text.Numeral.Fault)
  /-- A symbol would be bound to a negative address. -/
  | negativeAddress (address : Int)
  /-- The bytes of a file are no text. -/
  | undecodableText (fault : Text.Utf8.Fault)
  /-- A path is not opened. -/
  | directory (fault : Directory.Fault)
  /-- The suffix of a path is not replaced. -/
  | path (fault : Path.Fault)
  /-- No source file is known from which an output path could be derived. -/
  | noSource
  /-- No assembly has succeeded whose output could be written. -/
  | nothingAssembled
  /-- A name belongs to no kind of symbol. -/
  | unknownKind (name : String)
  /-- A name belongs to no field. -/
  | unknownField (name : String)
  /-- A computation is left out. -/
  | omittedMnemonic
  /-- A word without digits is asked for its first one. -/
  | emptyWord
  /-- A variable of the environment holds a null character. -/
  | nullCharacter
  /-- A text cannot be written, be it the message of another failure. -/
  | unwritable (obstacle : Text.Obstacle)
  deriving DecidableEq

namespace Failure

/-- The wording of a failure. -/
def message : Failure → String
  | diagnosed d => d.message
  | undecodableWord fault => fault.message
  | undecodableFields fault => fault.message
  | numeral fault => fault.message
  | negativeAddress address => "symbol address must be non-negative, got " ++ toString address
  | undecodableText fault => fault.message
  | directory fault => fault.message
  | path fault => fault.message
  | noSource => "no source file to derive an output path from"
  | nothingAssembled => "nothing has been assembled successfully"
  | unknownKind name => Text.quote name ++ " is not a valid SymbolKind"
  | unknownField name => Text.quote name
  | omittedMnemonic => "'NoneType' object is not iterable"
  | emptyWord => "string index out of range"
  | nullCharacter => "embedded null byte"
  | unwritable obstacle => obstacle.message

/-- The failure of a run that ends early. -/
def ofInterruption : Interruption → Failure
  | .diagnosed d => diagnosed d
  | .numeral fault => numeral fault
  | .negativeAddress address => negativeAddress address
  | .unwritable obstacle => unwritable obstacle

/-- The failure that a diagnostic describes, if its message can be written where `memory` characters
fit in memory. -/
def ofDiagnostic (memory : Int) (d : Diagnostic) : Failure :=
  ofInterruption (.ofDiagnostic memory d)

/-- The failure that a cause without a place describes. -/
def ofCause (cause : Cause) : Failure :=
  ofInterruption (.ofCause cause)

/-- The failure of a word that is not disassembled, if its index can be written. -/
def ofDisassembly (fault : Disassembly.Fault) : Failure :=
  match fault.index.bind Text.numberObstacle? with
  | some obstacle => unwritable obstacle
  | none => undecodableWord fault

end Failure

/-- The field of a name. -/
def Field.read (name : String) : Except Failure Field :=
  match Field.ofName? name with
  | some field => .ok field
  | none => .error (.unknownField name)

/-- The bits of a mnemonic in a field; the mnemonic may be left out. -/
def Field.readCode (f : Field) (mnemonic : Option String) : Except Failure String :=
  match mnemonic with
  | some text => (f.encode text).mapError Failure.ofCause
  | none =>
    match f.code? none with
    | some bits => .ok bits
    | none => .error .omittedMnemonic

/-- The kind of a name. -/
def SymbolKind.read (name : String) : Except Failure SymbolKind :=
  match SymbolKind.ofName? name with
  | some kind => .ok kind
  | none => .error (.unknownKind name)

/-- The values among the variables of an environment, whose texts hold no null character. -/
def Environment.read (entries : List (String × String)) : Except Failure Environment :=
  if entries.any fun entry => entry.2.toList.contains '\x00' then .error .nullCharacter
  else .ok (.ofVariables entries)

/-- The word that loads an address. -/
def Word.encodeAddress (address : Int) (limit : Option Int) : Except Failure Word :=
  (ofAddress address limit).mapError Failure.ofCause

/-- Whether the word of an entry loads an address. -/
def Disassembly.Entry.loadsAddress (e : Disassembly.Entry) : Except Failure Bool :=
  match e.loadsAddress? with
  | some answer => .ok answer
  | none => .error .emptyWord

/-- The line of an entry, if its address can be written. -/
def Disassembly.Entry.writtenLine (e : Disassembly.Entry) : Except Failure String :=
  match Text.numberObstacle? e.address with
  | some obstacle => .error (.unwritable obstacle)
  | none => .ok e.line

/-- The entries of a list of texts of which the first has the given address. -/
def disassemble (symbols : SymbolMap) (start : Int) (count : Option Int) (texts : List String) :
    Except Failure (List Disassembly.Entry) :=
  (Disassembly.decodeWords symbols start count texts).mapError Failure.ofDisassembly

end HackToolchain
