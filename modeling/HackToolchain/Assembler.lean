import HackToolchain.Failure
import HackToolchain.Program.Output

/-!
# The assembler

An assembler works through a session: it assembles texts, lists of lines and files, one after the
other, and shows and writes what the last assembly produced. Output is written only if the last
assembly that got as far as reading lines has succeeded. The path of the last file that was to be
assembled is remembered, and the default output goes beside it.

An assembly that fails while its lines are read leaves the program of the assembly before it to be
looked at. One that fails while code is generated leaves what the run of code generation keeps.
-/

namespace HackToolchain

/-- An attempt to assemble, as far as it got. -/
inductive Attempt where
  /-- The source file was not opened. -/
  | unopened (fault : Directory.Fault)
  /-- Not all lines were read, or one of them holds no statement. -/
  | unread (failure : Failure)
  /-- The statements went through code generation. -/
  | ran (statements : List Statement) (run : Run)

namespace Attempt

/-- The attempt to assemble the lines that a source yields. -/
def ofSource (settings : Settings) (file : String) (source : SourceFile) : Attempt :=
  match Statement.ofLines file source.lines with
  | .error d => unread (.ofDiagnostic Text.ampleMemory d)
  | .ok statements =>
    match source.fault with
    | some fault => unread (.undecodableText fault)
    | none => ran statements (generate settings statements)

/-- The attempt to assemble a file. -/
def ofFile (settings : Settings) (d : Directory) (path : Path) : Attempt :=
  match d.read path.text with
  | .error fault => unopened fault
  | .ok bytes => ofSource settings path.text (.ofBytes bytes)

/-- The words of an attempt, or what it failed with. -/
def result : Attempt → Except Failure (List Word)
  | unopened fault => .error (.directory fault)
  | unread failure => .error failure
  | ran _ run => run.result.mapError Failure.ofInterruption

end Attempt

/-- The state of a session. -/
structure Assembler where
  settings : Settings
  program : Program
  source : Option Path
  ready : Bool

namespace Assembler

/-- A session at its start. -/
def start (settings : Settings) : Assembler :=
  ⟨settings, .empty settings, none, false⟩

/-- The session after an attempt. -/
def record (a : Assembler) : Attempt → Assembler
  | .unopened _ => a
  | .unread _ => { a with ready := false }
  | .ran _ run => { a with program := run.kept a.settings, ready := run.fault.isNone }

/-- Assembles a list of lines. -/
def assembleLines (a : Assembler) (file : String) (lines : List String) :
    Assembler × Except Failure (List Word) :=
  let attempt := Attempt.ofSource a.settings file ⟨lines, none⟩
  (a.record attempt, attempt.result)

/-- Assembles a text. -/
def assembleText (a : Assembler) (file text : String) : Assembler × Except Failure (List Word) :=
  a.assembleLines file (Text.lines text)

/-- Assembles a file. -/
def assembleFile (a : Assembler) (d : Directory) (path : Path) :
    Assembler × Except Failure (List Word) :=
  let attempt := Attempt.ofFile a.settings d path
  ({ a with source := some path }.record attempt, attempt.result)

/-- The path of the machine code beside a source. -/
def outputBeside (a : Assembler) (source : Path) : Except Failure Path :=
  (source.withSuffix a.settings.outputSuffix).mapError Failure.path

/-- The default path of the machine code: beside the given source or else the remembered one. -/
def outputPath (a : Assembler) (source : Option Path) : Except Failure Path :=
  match source.or a.source with
  | some path => a.outputBeside path
  | none => .error .noSource

/-- Fails unless the last assembly that read lines has succeeded. -/
def requireReady (a : Assembler) : Except Failure Unit :=
  if a.ready then .ok () else .error .nothingAssembled

/-- Writes an output file of the last assembly. -/
def write (a : Assembler) (d : Directory) (kind : OutputKind) (path : String) :
    Directory × Except Failure Unit :=
  match a.requireReady with
  | .error failure => (d, .error failure)
  | .ok () => a.program.write d kind path

/-- Writes the machine code to a given or else to the default path, and returns the path. -/
def writeCode (a : Assembler) (d : Directory) (path : Option Path) :
    Directory × Except Failure Path :=
  match a.requireReady with
  | .error failure => (d, .error failure)
  | .ok () =>
    match path.elim (a.outputPath none) .ok with
    | .error failure => (d, .error failure)
    | .ok path =>
      let (d, result) := a.program.write d .code path.text
      (d, result.map fun _ => path)

end Assembler

/-- The words of a text under the default settings. -/
def assemble (file text : String) : Except Failure (List Word) :=
  ((Assembler.start .default).assembleText file text).2

end HackToolchain
