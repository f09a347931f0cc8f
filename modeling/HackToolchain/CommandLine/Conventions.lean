import HackToolchain.CommandLine.Arguments
import HackToolchain.CommandLine.Library
import HackToolchain.Text.Terminal

/-!
# A conventional library

A command-line library that keeps to the usual conventions for options and needs no words of its own:
it names the version when asked for it and refuses what it does not understand. Lines are printed
without terminal control sequences.
-/

namespace HackToolchain

/-- A tool that is not called. -/
def Refusal.invocation {ρ : Type} : Refusal → Invocation ρ
  | usage => .refuse 2 []
  | lookup fault => .fail (.directory fault)

/-- What some arguments come to: the first option that asks for information is answered, and if there
is none, the values are checked. -/
def Arguments.invocation {κ ρ : Type} (forms : List (OptionForm κ))
    (information? : κ → Option (List String))
    (check : Arguments κ → Except Refusal ρ) (arguments : List String) : Invocation ρ :=
  match scan forms arguments with
  | .error refusal => refusal.invocation
  | .ok a =>
    match a.options.findSome? fun option => information? option.1 with
    | some output => .inform output
    | none =>
      match check a with
      | .error refusal => refusal.invocation
      | .ok request => .call request

namespace AssemblerTool

/-- The options of the tool. -/
inductive Choice where
  | output
  | listing
  | symbols
  | rangeCheck
  | noRangeCheck
  | variableBase
  | verbose
  | version
  | help
  deriving DecidableEq

/-- How the options are written. -/
def forms : List (OptionForm Choice) :=
  [⟨.output, "--output", some 'o', true⟩, ⟨.listing, "--listing", some 'l', true⟩,
   ⟨.symbols, "--symbols", some 's', true⟩, ⟨.rangeCheck, "--range-check", none, false⟩,
   ⟨.noRangeCheck, "--no-range-check", none, false⟩,
   ⟨.variableBase, "--variable-base", none, true⟩, ⟨.verbose, "--verbose", some 'v', false⟩,
   ⟨.version, "--version", none, false⟩, ⟨.help, "--help", none, false⟩]

/-- The lines of the information that an option asks for. -/
def information? : Choice → Option (List String)
  | .version => some ["hackasm, version 1.0.0"]
  | .help => some []
  | _ => none

/-- An address at which variables may begin. -/
def isBase (n : Int) : Bool :=
  0 ≤ n && n ≤ Machine.addressMax

/-- Checks the value of an option and takes it. -/
def Options.take (d : Directory) (o : Options) : Choice × String → Except Refusal Options
  | (.output, text) => (Arguments.creatable d text).map fun path => { o with output := path }
  | (.listing, text) => (Arguments.creatable d text).map fun path => { o with listing := path }
  | (.symbols, text) => (Arguments.creatable d text).map fun path => { o with symbols := path }
  | (.variableBase, text) =>
    (Arguments.integer isBase text).map fun base => { o with variableBase := base }
  | (.verbose, _) => .ok { o with verbose := true }
  | (.rangeCheck, _) | (.noRangeCheck, _) | (.version, _) | (.help, _) => .ok o

/-- Checks the arguments against the directory. -/
def Request.ofArguments (d : Directory) (a : Arguments Choice) : Except Refusal Request := do
  let start : Options := { rangeCheck := a.choice? .rangeCheck .noRangeCheck }
  let options ← a.settled.foldlM (Options.take d) start
  let input ← a.input d
  return ⟨options, input⟩

end AssemblerTool

namespace DisassemblerTool

/-- The options of the tool. -/
inductive Choice where
  | output
  | addresses
  | symbols
  | count
  | verbose
  | version
  | help
  deriving DecidableEq

/-- How the options are written. -/
def forms : List (OptionForm Choice) :=
  [⟨.output, "--output", some 'o', true⟩, ⟨.addresses, "--addresses", some 'a', false⟩,
   ⟨.symbols, "--symbols", some 's', true⟩, ⟨.count, "--count", some 'c', true⟩,
   ⟨.verbose, "--verbose", some 'v', false⟩, ⟨.version, "--version", none, false⟩,
   ⟨.help, "--help", none, false⟩]

/-- The lines of the information that an option asks for. -/
def information? : Choice → Option (List String)
  | .version => some ["hackdisasm, version 1.0.0"]
  | .help => some []
  | _ => none

/-- Checks the value of an option and takes it. -/
def Options.take (d : Directory) (o : Options) : Choice × String → Except Refusal Options
  | (.output, text) => (Arguments.creatable d text).map fun path => { o with output := path }
  | (.symbols, text) => (Arguments.existing d text).map fun path => { o with symbols := path }
  | (.count, text) =>
    (Arguments.integer (fun _ => true) text).map fun count => { o with count := count }
  | (.addresses, _) => .ok { o with addresses := true }
  | (.verbose, _) => .ok { o with verbose := true }
  | (.version, _) | (.help, _) => .ok o

/-- Checks the arguments against the directory. -/
def Request.ofArguments (d : Directory) (a : Arguments Choice) : Except Refusal Request := do
  let options ← a.settled.foldlM (Options.take d) {}
  let input ← a.input d
  return ⟨options, input⟩

end DisassemblerTool

/-- The library that keeps to the conventions. -/
def CommandLibrary.conventional : CommandLibrary where
  assembler arguments d :=
    Arguments.invocation AssemblerTool.forms AssemblerTool.information?
      (AssemblerTool.Request.ofArguments d) arguments
  disassembler arguments d :=
    Arguments.invocation DisassemblerTool.forms DisassemblerTool.information?
      (DisassemblerTool.Request.ofArguments d) arguments
  printed := Text.plain

end HackToolchain
