import HackToolchain.CommandLine.Library

/-!
# The tools of the toolchain

Each of the two tools is known by a name and runs on its arguments, as a command-line library reads
them, in an environment and a directory.
-/

namespace HackToolchain

/-- The tools. -/
inductive Tool where
  | assembler
  | disassembler
  deriving DecidableEq

namespace Tool

/-- The name by which a tool is called. -/
def name : Tool → String
  | assembler => "hackasm"
  | disassembler => "hackdisasm"

/-- The tool of a name. -/
def ofName? (s : String) : Option Tool :=
  [assembler, disassembler].find? fun t => t.name == s

/-- Runs a tool on arguments that a library reads. -/
def run (c : CommandLibrary) (t : Tool) (arguments : List String) (e : Environment)
    (d : Directory) : Outcome :=
  match t with
  | assembler =>
    (c.assembler arguments d).outcome d fun r => .finished (AssemblerTool.perform c.printed r e d)
  | disassembler =>
    (c.disassembler arguments d).outcome d fun r => DisassemblerTool.perform c.printed r d

/-- The status with which a tool ends when its run is broken off. -/
def brokenStatus : Nat := 1

end Tool

end HackToolchain
