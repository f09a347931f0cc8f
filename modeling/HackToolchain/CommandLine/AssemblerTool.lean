import HackToolchain.CommandLine.Report
import HackToolchain.Program.Notice

/-!
# The assembler as a tool

The tool assembles one file and writes the machine code beside it or to a given path; on request it
writes the listing and the symbol file as well. The environment and then the options replace the
default settings. Nothing is written unless the whole file assembles, and the files are written one
after the other until one cannot be.
-/

namespace HackToolchain.AssemblerTool

/-- The heading of complaints about a text. -/
def activity : String := "Assembly"

/-- The values of the options. -/
structure Options where
  output : Option Path := none
  listing : Option Path := none
  symbols : Option Path := none
  rangeCheck : Option Bool := none
  variableBase : Option Int := none
  verbose : Bool := false

/-- What the tool is asked to do. -/
structure Request extends Options where
  input : Path

/-- The settings of a request in an environment. -/
def Request.settings (r : Request) (e : Environment) : Settings :=
  let start := Settings.ofEnvironment e
  { start with
    rangeCheck := r.rangeCheck.getD start.rangeCheck
    variableBase := r.variableBase.getD start.variableBase }

/-- A file that is to be written. -/
structure Output where
  kind : OutputKind
  path : Path

/-- The line that announces a written file. -/
def Output.announcement (p : Program) (o : Output) : String :=
  let what :=
    match o.kind with
    | .code => toString p.words.length ++ " words"
    | .listing => "listing"
    | .symbols => "symbols"
  "Wrote " ++ what ++ " to " ++ o.path.text

/-- The files that are written, when the machine code goes to a given path. -/
def outputs (r : Request) (code : Path) : List Output :=
  ⟨.code, code⟩ :: ((r.listing.map (Output.mk .listing)).toList ++
    (r.symbols.map (Output.mk .symbols)).toList)

/-- The directory after files have been written in turn, the files that were written, and what kept
the next one from being written. -/
structure Writing where
  directory : Directory
  written : List Output
  fault : Option Directory.Fault

/-- Writes files of a program in turn until one cannot be written. -/
def writeAll (p : Program) (d : Directory) : List Output → Writing
  | [] => ⟨d, [], none⟩
  | o :: rest =>
    match d.write o.path.text (p.outputText o.kind) with
    | .error fault => ⟨d, [], some fault⟩
    | .ok d =>
      let later := writeAll p d rest
      { later with written := o :: later.written }

/-- The line that sums up a program. -/
def summary (p : Program) : String :=
  let count (kind : SymbolKind) := toString (p.symbols.ofKind (some kind)).length
  "Assembly complete: " ++ toString p.instructionCount ++ " instructions, " ++ count .label ++
    " labels, " ++ count .var ++ " variables"

/-- The run for a request, which prints its lines as a library has it. -/
def perform (printed : String → String) (r : Request) (e : Environment) (d : Directory) : Report :=
  let start := Assembler.start (r.settings e)
  let shown (texts : List String) := if r.verbose then texts.map printed else []
  let logged (notices : List Notice) := if r.verbose then notices.map Notice.line else []
  let failed (f : Failure) := Report.failed printed (some activity) f.complaint
  -- The output path has to be known before the source is read.
  match r.output.elim (start.outputBeside r.input) .ok with
  | .error f => failed f d [] []
  | .ok code =>
    let attempt := Attempt.ofFile start.settings d r.input
    let greeting := "Assembling " ++ r.input.text ++ "..."
    match attempt.result with
    | .error f => failed f d (shown [greeting]) (logged (attempt.notices r.input))
    | .ok _ =>
      let program := (start.record attempt).program
      let writing := writeAll program d (outputs r code)
      let announced := greeting :: writing.written.map (Output.announcement program)
      let notices := attempt.notices r.input ++
        writing.written.map fun o => .wrote o.kind o.path
      match writing.fault with
      | some fault =>
        failed (.directory fault) writing.directory (shown announced) (logged notices)
      | none =>
        .success writing.directory (shown (announced ++ [summary program])) (logged notices)

end HackToolchain.AssemblerTool
