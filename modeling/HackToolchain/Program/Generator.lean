import HackToolchain.Program.Generation

/-!
# The code generator

A code generator is kept between runs. It holds the symbols, the allocation of variables, the words,
the listing and the number of instructions of its last run, and both passes work on what it holds.
A run therefore starts with a reset, which takes over the settings as they are by then.

A run that ends with a diagnostic is reset once more. One that is broken off for another reason is
not, and its traces stay until the next run.
-/

namespace HackToolchain

/-- A code generator: its settings, and what its last run has left. -/
structure Generator where
  settings : Settings
  symbols : SymbolTable
  allocator : Allocator
  words : List Word
  listing : List ListingLine
  instructionCount : Nat
  deriving DecidableEq

namespace Generator

/-- A generator that has never run. -/
def start (settings : Settings) : Generator :=
  ⟨settings, .initial, .ofBase settings.variableBase Machine.reserved, [], [], 0⟩

/-- The program that a generator holds. -/
def program (g : Generator) : Program :=
  ⟨g.symbols, g.allocator, g.listing, g.instructionCount⟩

/-- Drops everything but the settings. -/
def reset (g : Generator) : Generator :=
  { g with
    symbols := .initial
    allocator := .ofBase g.settings.variableBase Machine.reserved
    words := []
    listing := []
    instructionCount := 0 }

/-- The first pass binds labels in the symbols at hand. The instructions are counted when it is
over. -/
def bindLabels (g : Generator) (statements : List Statement) : Generator × Option Interruption :=
  let labelling := HackToolchain.bindLabels g.symbols 0 statements
  match labelling.fault with
  | some fault => ({ g with symbols := labelling.symbols }, some fault)
  | none =>
    ({ g with symbols := labelling.symbols, instructionCount := labelling.count }, none)

/-- Encodes and lists a statement; its address is the number of words at hand. -/
def emitStatement (g : Generator) (s : Statement) : Generator × Option Interruption :=
  match Bindings.encode g.settings ⟨g.symbols, g.allocator⟩ s with
  | (b, .error fault) =>
    ({ g with symbols := b.symbols, allocator := b.allocator },
      some (fault.locate s.faultPlace s.source))
  | (b, .ok word) =>
    ({ g with
        symbols := b.symbols
        allocator := b.allocator
        words := g.words ++ word.toList
        listing := g.listing ++ [⟨s.location, s.source, g.words.length, word⟩] }, none)

/-- The second pass encodes the statements in order, up to the first that fails. -/
def emit (g : Generator) : List Statement → Generator × Option Interruption
  | [] => (g, none)
  | s :: rest =>
    match g.emitStatement s with
    | (g, some fault) => (g, some fault)
    | (g, none) => g.emit rest

/-- The two passes. -/
def passes (g : Generator) (statements : List Statement) : Generator × Option Interruption :=
  match g.bindLabels statements with
  | (g, some fault) => (g, some fault)
  | (g, none) => g.emit statements

/-- A run: the generator behind it, and the words or what ended it early. -/
def generate (g : Generator) (statements : List Statement) :
    Generator × Except Interruption (List Word) :=
  match g.reset.passes statements with
  | (g, none) => (g, .ok g.words)
  | (g, some (.diagnosed d)) => (g.reset, .error (.diagnosed d))
  | (g, some fault) => (g, .error fault)

/-- What happens to a generator between two runs, and the runs themselves. -/
inductive Request where
  | configure (settings : Settings)
  | generate (statements : List Statement)

/-- The generator behind a request. -/
def perform (g : Generator) : Request → Generator
  | .configure settings => { g with settings := settings }
  | .generate statements => (g.generate statements).1

/-- The generator behind a list of requests. -/
def after (g : Generator) (history : List Request) : Generator :=
  history.foldl perform g

end Generator

end HackToolchain
