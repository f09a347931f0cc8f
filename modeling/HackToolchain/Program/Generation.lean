import HackToolchain.Instruction.Word
import HackToolchain.Settings
import HackToolchain.Source.Statement
import HackToolchain.Symbol.Allocator
import HackToolchain.Symbol.Binding
import HackToolchain.Text.Numeral

/-!
# Code generation

Code is generated in two passes over the statements. The first binds every label to the number of
instructions before it; the second encodes the instructions in order, and gives an address to each
symbol that is not bound when it is first used. Since labels may be used before they are declared,
no operand is resolved before all of them are bound.

A run that ends with a diagnostic leaves nothing behind. A run that is broken off because a numeral
is too long, because a variable would get a negative address, or because a diagnostic or the
announcement of a symbol cannot be written, keeps what it has generated so far. Memory is taken to be
ample.
-/

namespace HackToolchain

/-- A line of the listing: a statement, the number of instructions before it, and its word. -/
structure ListingLine where
  location : Location
  source : String
  address : Nat
  word : Option Word
  deriving DecidableEq

/-- What a run of code generation produces. -/
structure Program where
  symbols : SymbolTable
  allocator : Allocator
  listing : List ListingLine
  instructionCount : Nat
  deriving DecidableEq

namespace Program

/-- The program of no statements. -/
def empty (settings : Settings) : Program :=
  ⟨.initial, .ofBase settings.variableBase Machine.reserved, [], 0⟩

/-- The words of the program, one for each instruction. -/
def words (p : Program) : List Word :=
  p.listing.filterMap (·.word)

/-- The addresses that were given to variables, in order. -/
def variableAddresses (p : Program) : List Int :=
  p.allocator.allocated

end Program

/-- An interruption whose diagnostic has got a place, if it had none. -/
def Interruption.locate (i : Interruption) (place : Cause → Location) (sourceLine : String) :
    Interruption :=
  match i with
  | diagnosed d => ofDiagnostic Text.ampleMemory (d.locate (some (place d.cause)) (some sourceLine))
  | other => other

/-- A cause that was found without a place is reported at the place that is attached. -/
theorem Interruption.locate_ofCause (cause : Cause) (place : Cause → Location)
    (sourceLine : String) : (ofCause cause).locate place sourceLine =
      ofDiagnostic Text.ampleMemory ⟨cause, some (place cause), some sourceLine⟩ := by
  cases h : cause.numbers.findSome? Text.numberObstacle? with
  | some obstacle =>
    -- The cause cannot be described, with or without a place.
    simp [ofCause, ofDiagnostic, locate, Diagnostic.obstacle?, Diagnostic.numbers,
      Diagnostic.ofCause, List.findSome?_append, h]
  | none =>
    simp [ofCause, ofDiagnostic, locate, Diagnostic.obstacle?, Diagnostic.numbers,
      Diagnostic.ofCause, Diagnostic.caretObstacle?, Diagnostic.locate, h]

/-! ### Labels -/

/-- The result of the first pass: the symbols bound so far, the number of instructions so far, and
what ended the pass early. -/
structure Labelling where
  symbols : SymbolTable
  count : Nat
  fault : Option Interruption
  deriving DecidableEq

/-- Binds the labels of the statements behind `count` instructions. -/
def bindLabels (symbols : SymbolTable) (count : Nat) : List Statement → Labelling
  | [] => ⟨symbols, count, none⟩
  | s :: rest =>
    match s.command with
    | .label name =>
      match symbols.bind Text.ampleMemory ⟨name, count, .label, some s.location⟩ (some s.source) with
      | (bound, .ok ()) => bindLabels bound count rest
      | (bound, .error i) => ⟨bound, count, some i⟩
    | .addressLoad _ | .compute _ => bindLabels symbols (count + 1) rest
    | .remark => bindLabels symbols count rest

/-! ### Code -/

/-- The symbols and the allocation of variables while code is generated. -/
structure Bindings where
  symbols : SymbolTable
  allocator : Allocator
  deriving DecidableEq

namespace Bindings

/-- The address of a bound name. -/
def lookup (b : Bindings) (name : String) : Except Interruption Int :=
  match b.symbols.lookup name with
  | .ok address => .ok address
  | .error cause => .error (.ofCause cause)

/-- The address of an operand: a literal is its value, a bound name has its address, and any other
name becomes a variable. -/
def resolve (b : Bindings) (location : Location) (source operand : String) :
    Bindings × Except Interruption Int :=
  if Text.Numeral.isLiteral operand then
    match Text.Numeral.readLiteral operand with
    | .ok value => (b, .ok value)
    | .error fault => (b, .error (.numeral fault))
  else if b.symbols.contains operand then (b, b.lookup operand)
  else
    -- The address is taken even if the binding is refused.
    let (address, allocator) := b.allocator.allocate
    match b.symbols.bind Text.ampleMemory ⟨operand, address, .var, some location⟩ (some source) with
    | (symbols, .error i) => (⟨symbols, allocator⟩, .error i)
    | (symbols, .ok ()) =>
      -- The allocation is announced once more, with the place of the operand.
      match location.obstacle? with
      | some obstacle => (⟨symbols, allocator⟩, .error (.unwritable obstacle))
      | none => (⟨symbols, allocator⟩, Bindings.lookup ⟨symbols, allocator⟩ operand)

/-- The word of an encoding, or the interruption by its cause. -/
def encoded (result : Except Cause Word) : Except Interruption (Option Word) :=
  match result with
  | .ok word => .ok (some word)
  | .error cause => .error (.ofCause cause)

/-- The word of a statement; none if it is no instruction. -/
def encode (settings : Settings) (b : Bindings) (s : Statement) :
    Bindings × Except Interruption (Option Word) :=
  match s.command with
  | .addressLoad operand =>
    match b.resolve s.location s.source operand with
    | (b, .ok address) => (b, encoded (Word.ofAddress address settings.limit))
    | (b, .error i) => (b, .error i)
  | .compute fields => (b, encoded fields.encode)
  | .label _ | .remark => (b, .ok none)

end Bindings

/-- The column of the part of a command that causes a fault. -/
def Command.faultColumn (c : Command) (column : Int) (cause : Cause) : Int :=
  match c with
  | addressLoad _ => 2
  | compute fields =>
    match cause with
    | .unknownMnemonic field _ _ =>
      if field = Field.comp.name then fields.compColumn
      else if field = Field.jump.name ∧ fields.jumpColumn ≠ 0 then fields.jumpColumn
      else 1
    | _ => 1
  | label _ | remark => column

/-- The place of the part of a statement that causes a fault. -/
def Statement.faultPlace (s : Statement) (cause : Cause) : Location :=
  s.location.atColumn (s.command.faultColumn s.location.column cause)

/-- The result of the second pass: the symbols and allocation so far, the lines listed so far, and
what ended the pass early. -/
structure Emission where
  bindings : Bindings
  listing : List ListingLine
  fault : Option Interruption
  deriving DecidableEq

/-- Lists and encodes the statements behind `address` instructions. -/
def emit (settings : Settings) (b : Bindings) (address : Nat) : List Statement → Emission
  | [] => ⟨b, [], none⟩
  | s :: rest =>
    match b.encode settings s with
    | (b, .error i) => ⟨b, [], some (i.locate s.faultPlace s.source)⟩
    | (b, .ok word) =>
      let behind := emit settings b (if word.isSome then address + 1 else address) rest
      { behind with listing := ⟨s.location, s.source, address, word⟩ :: behind.listing }

/-! ### Runs -/

/-- A run of code generation: what it has produced, whether all labels were bound, and what ended it
early. -/
structure Run where
  program : Program
  labelled : Bool
  fault : Option Interruption
  deriving DecidableEq

/-- The run of some statements. -/
def generate (settings : Settings) (statements : List Statement) : Run :=
  let labelling := bindLabels .initial 0 statements
  let allocator := Allocator.ofBase settings.variableBase Machine.reserved
  match labelling.fault with
  -- Without all labels no operand is resolved, so there is no second pass.
  | some fault => ⟨⟨labelling.symbols, allocator, [], 0⟩, false, some fault⟩
  | none =>
    let emission := emit settings ⟨labelling.symbols, allocator⟩ 0 statements
    let bindings := emission.bindings
    ⟨⟨bindings.symbols, bindings.allocator, emission.listing, labelling.count⟩, true,
      emission.fault⟩

namespace Run

/-- The words of a run that was not ended early. -/
def result (r : Run) : Except Interruption (List Word) :=
  match r.fault with
  | none => .ok r.program.words
  | some fault => .error fault

theorem result_eq_ok_iff {r : Run} {words : List Word} :
    r.result = .ok words ↔ r.fault = none ∧ r.program.words = words := by
  rw [result]
  cases r.fault <;> simp

/-- What a run leaves behind: nothing if it ended with a diagnostic. -/
def kept (settings : Settings) (r : Run) : Program :=
  match r.fault with
  | some (.diagnosed _) => .empty settings
  | _ => r.program

end Run

end HackToolchain
