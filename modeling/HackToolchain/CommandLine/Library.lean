import HackToolchain.CommandLine.AssemblerTool
import HackToolchain.CommandLine.DisassemblerTool

/-!
# Command-line libraries

The tools leave it to a library to make sense of their arguments and to print their lines. The library
calls a tool with a request, or it prints information that was asked for, or it refuses the arguments.
It looks at the files that the arguments name, and it changes none.

Of such a library only some things are documented: with which status a refusal ends, that a request
names its files by paths, and how a file is named as the input and another one as the output.
-/

namespace HackToolchain

/-- What a library makes of the arguments of a tool, whose requests have the type `ρ`. -/
inductive Invocation (ρ : Type) where
  /-- The tool is called. -/
  | call (request : ρ)
  /-- The arguments ask for information, whose lines are printed. -/
  | inform (output : List String)
  /-- The arguments are refused. -/
  | refuse (status : Nat) (errors : List String)
  /-- The library itself fails on the arguments. -/
  | fail (failure : Failure)

/-- The outcome for some arguments of a tool that does `perform` when it is called. -/
def Invocation.outcome {ρ : Type} (d : Directory) (perform : ρ → Outcome) : Invocation ρ → Outcome
  | call request => perform request
  | inform output => .finished (.success d output [])
  | refuse status errors => .refused status errors
  | fail failure => .broken failure

/-- A command-line library: what it makes of the arguments of each tool in a directory, and what it
prints of a line. -/
structure CommandLibrary where
  assembler : List String → Directory → Invocation AssemblerTool.Request
  disassembler : List String → Directory → Invocation DisassemblerTool.Request
  printed : String → String

namespace CommandLibrary

/-- Arguments that name an output file and an input file and ask for nothing else. Behind two dashes
no argument is taken for an option. -/
def fileArguments (input output : String) : List String :=
  ["-o", output, "--", input]

/-- What is documented of a command-line library. -/
structure Documented (c : CommandLibrary) : Prop where
  /-- Arguments that are refused end a tool with status 2. -/
  assembler_refusal : ∀ arguments d status errors,
    c.assembler arguments d = .refuse status errors → status = 2
  disassembler_refusal : ∀ arguments d status errors,
    c.disassembler arguments d = .refuse status errors → status = 2
  /-- The paths of a request are made from texts. -/
  assembler_path : ∀ arguments d r, c.assembler arguments d = .call r →
    ∀ path, path = r.input ∨ r.output = some path → ∃ text, path = .ofText text
  disassembler_path : ∀ arguments d r, c.disassembler arguments d = .call r →
    ∀ path, path = r.input ∨ r.output = some path → ∃ text, path = .ofText text
  /-- A file that can be read is taken as the input, and a path at which a file can be written as the
  output. -/
  assembler_files : ∀ d input output bytes place, d.read input = .ok bytes →
    d.target output = .ok place → c.assembler (fileArguments input output) d =
      .call { input := .ofText input, output := some (.ofText output) }
  disassembler_files : ∀ d input output bytes place, d.read input = .ok bytes →
    d.target output = .ok place → c.disassembler (fileArguments input output) d =
      .call { input := .ofText input, output := some (.ofText output) }

end CommandLibrary

end HackToolchain
