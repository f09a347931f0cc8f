import HackToolchain.Assembler

/-!
# Notices

On request an assembly reports its progress: what is opened and read, every symbol as it is bound,
the end of each pass, and what is written. The notices of a run can be read off what it has
produced, because symbols stay in the table in the order in which they were bound.
-/

namespace HackToolchain

/-- A step of an assembly that is reported. -/
inductive Notice where
  | opening (path : Path)
  | read (count : Nat) (file : String)
  | bound (s : Symbol)
  | labelled (instructionCount labelCount : Nat)
  | allocated (s : Symbol)
  | generated (wordCount variableCount : Nat)
  | assembled (file : String) (instructionCount variableCount : Nat)
  | wrote (kind : OutputKind) (path : Path)

namespace Notice

/-- The wording of a notice. -/
def text : Notice → String
  | opening path => "Assembling " ++ path.text
  | read count file => "Parsed " ++ toString count ++ " statements from " ++ file
  | bound s => "Bound " ++ s.kind.name ++ " '" ++ s.name ++ "' = " ++ toString s.address
  | labelled instructions labels =>
    "Pass 1 complete: " ++ toString instructions ++ " instructions, " ++ toString labels ++
      " labels"
  | allocated s =>
    (s.location.map fun place => place.text ++ ": ").getD "" ++ "allocated variable '" ++ s.name ++
      "' at " ++ toString s.address
  | generated words placed =>
    "Pass 2 complete: " ++ toString words ++ " words, " ++ toString placed ++ " variables"
  | assembled file instructions placed =>
    "Assembled " ++ file ++ ": " ++ toString instructions ++ " instructions, " ++
      toString placed ++ " variables"
  | wrote .code path => "Wrote " ++ path.text
  | wrote .listing path => "Wrote listing to " ++ path.text
  | wrote .symbols path => "Wrote symbols to " ++ path.text

/-- The weight of a notice: a finished assembly matters more than a step of it. -/
def level : Notice → String
  | assembled _ _ _ => "INFO"
  | _ => "DEBUG"

/-- The line of a notice in the log. -/
def line (n : Notice) : String :=
  n.level ++ ": " ++ n.text

end Notice

/-- The steps of a run. -/
def Run.notices (r : Run) : List Notice :=
  let labels := r.program.symbols.ofKind (some .label)
  let placed := r.program.symbols.ofKind (some .var)
  let first := labels.map Notice.bound
  if !r.labelled then first
  else
    let second := placed.flatMap fun s => [.bound s, .allocated s]
    let last :=
      if r.fault.isSome then []
      else [.generated r.program.words.length r.program.variableAddresses.length]
    first ++ .labelled r.program.instructionCount labels.length :: second ++ last

/-- The steps of an attempt to assemble a file. -/
def Attempt.notices (path : Path) (t : Attempt) : List Notice :=
  .opening path ::
    match t with
    | unopened _ | unread _ => []
    | ran statements run =>
      let finished :=
        if run.fault.isSome then []
        else [.assembled path.text run.program.words.length run.program.variableAddresses.length]
      .read statements.length path.text :: run.notices ++ finished

end HackToolchain
