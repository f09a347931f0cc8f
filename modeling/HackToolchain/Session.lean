import HackToolchain.Assembler

/-!
# Sessions

A session is an assembler at work in a directory. It is asked to assemble texts, lists of lines and
files, to show and to write what it has produced, and its settings and the files around it may change
at any time. Every request has an answer; one that fails is refused with its failure.
-/

namespace HackToolchain

/-- Assembles the lines that a source yields. -/
def Assembler.assembleSource (a : Assembler) (file : String) (source : SourceFile) :
    Assembler × Except Failure (List Word) :=
  let attempt := Attempt.ofSource a.settings file source
  (a.record attempt, attempt.result)

/-- What a session shows. -/
inductive View where
  | code
  | instructionCount
  | symbols
  | listing
  /-- The default path of the machine code, beside the given source or else the remembered one. -/
  | outputPath (source : Option Path)

/-- What a session is asked, or what happens around it. -/
inductive Request where
  | assembleText (file text : String)
  | assembleLines (file : String) (source : SourceFile)
  | assembleFile (path : Path)
  | configure (settings : Settings)
  | look (view : View)
  | write (kind : OutputKind) (path : String)
  | writeCode (path : Option Path)
  /-- Files are changed by others. -/
  | replaceFiles (directory : Directory)

/-- What a session says. -/
inductive Answer where
  | words (words : List Word)
  | instructionCount (count : Nat)
  | symbols (table : SymbolTable)
  | text (text : String)
  | path (path : Path)
  /-- A file has been written. -/
  | written (path : String)
  | done
  | refused (failure : Failure)
  deriving DecidableEq

/-- The answer that a result gives. -/
def Answer.ofResult {α : Type} (answer : α → Answer) : Except Failure α → Answer
  | .ok value => answer value
  | .error failure => refused failure

/-- The kind of file that a request asks to be written. -/
def Request.output? : Request → Option OutputKind
  | write kind _ => some kind
  | writeCode _ => some .code
  | _ => none

/-- An assembler and the directory in which it works. -/
structure Session where
  assembler : Assembler
  directory : Directory

namespace Session

/-- A session at its start. -/
def start (settings : Settings) (directory : Directory) : Session :=
  ⟨.start settings, directory⟩

/-- What a session shows. -/
def view (s : Session) : View → Answer
  | .code => .words s.assembler.program.words
  | .instructionCount => .instructionCount s.assembler.program.instructionCount
  | .symbols => .symbols s.assembler.program.symbols
  | .listing => .ofResult .text s.assembler.program.writtenListing
  | .outputPath source => .ofResult .path (s.assembler.outputPath source)

/-- The session behind an assembly, and the answer to it. -/
def assembled (s : Session) (result : Assembler × Except Failure (List Word)) : Session × Answer :=
  ({ s with assembler := result.1 }, .ofResult .words result.2)

/-- The session behind a request, and the answer to it. -/
def perform (s : Session) : Request → Session × Answer
  | .assembleText file text => s.assembled (s.assembler.assembleText file text)
  | .assembleLines file source => s.assembled (s.assembler.assembleSource file source)
  | .assembleFile path => s.assembled (s.assembler.assembleFile s.directory path)
  | .configure settings => ({ s with assembler := { s.assembler with settings := settings } }, .done)
  | .look view => (s, s.view view)
  | .write kind path =>
    let (directory, result) := s.assembler.write s.directory kind path
    ({ s with directory := directory }, .ofResult (fun _ => .written path) result)
  | .writeCode path =>
    let (directory, result) := s.assembler.writeCode s.directory path
    ({ s with directory := directory }, .ofResult (fun path => .written path.text) result)
  | .replaceFiles directory => ({ s with directory := directory }, .done)

/-- The session behind a list of requests. -/
def after (s : Session) (requests : List Request) : Session :=
  requests.foldl (fun s request => (s.perform request).1) s

end Session

end HackToolchain
