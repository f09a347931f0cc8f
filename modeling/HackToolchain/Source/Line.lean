import HackToolchain.Diagnostic
import HackToolchain.Instruction.Fields
import HackToolchain.Text.Blank

/-!
# Source lines

A line without its outer blanks is told apart by its first character: an address load begins with an
at sign, a label declaration with an opening parenthesis, a comment with a slash, and everything
else computes. The text of an instruction ends at the first blank; what follows is a remark.

A faulty line is reported at the first character that cannot be part of a statement, or behind the
last one if the statement is not complete.
-/

namespace HackToolchain

/-- The kinds of source line. -/
inductive LineKind where
  | skip
  | addressLoad
  | compute
  | label
  deriving DecidableEq

/-- The kind of a line without outer blanks. -/
def LineKind.of (line : String) : LineKind :=
  match line.toList with
  | [] => .skip
  | c :: _ =>
    if c = '/' then .skip
    else if c = '@' then .addressLoad
    else if c = '(' then .label
    else .compute

namespace Source

/-- A malformation, and the number of characters before the place where it shows. -/
structure Fault where
  shape : Malformation
  index : Nat
  deriving DecidableEq

/-- The diagnostic of a fault in a line that begins at a given place. -/
def Fault.diagnostic (f : Fault) (location : Option Location) (line : String) : Diagnostic where
  cause := .malformed f.shape
  location := location.map fun place => place.atColumn (f.index + 1)
  sourceLine := some line

/-- The operand of an address load: the text behind the first character up to a blank. -/
def operand (line : String) : Except Fault String :=
  match Text.untilBlank (line.toList.drop 1) with
  | [] => .error ⟨.missingOperand, 1⟩
  | c :: cs => .ok (String.ofList (c :: cs))

/-- The name of a label declaration: the text behind the first character up to a closing
parenthesis. -/
def labelName (line : String) : Except Fault String :=
  let cs := line.toList.drop 1
  if cs.contains ')' then
    match cs.takeWhile (· ≠ ')') with
    | [] => .error ⟨.emptyLabel, 1⟩
    | name => .ok (String.ofList name)
  else .error ⟨.unterminatedLabel, line.toList.length⟩

/-- The characters that separate the fields of a compute instruction. -/
def isSeparator (c : Char) : Bool :=
  c == '=' || c == ';'

/-- The characters before the first separator. -/
def segment (cs : List Char) : List Char :=
  cs.takeWhile fun c => !isSeparator c

/-- The first separator and what follows it. -/
def afterSegment (cs : List Char) : List Char :=
  cs.dropWhile fun c => !isSeparator c

theorem segment_append_afterSegment (cs : List Char) : segment cs ++ afterSegment cs = cs :=
  List.takeWhile_append_dropWhile

theorem isSeparator_of_mem_segment {c : Char} {cs : List Char} (h : c ∈ segment cs) :
    isSeparator c = false := by
  have hall := List.all_takeWhile (p := fun c => !isSeparator c) (l := cs)
  simpa using List.all_eq_true.1 hall c h

theorem isSeparator_of_afterSegment {c : Char} {cs rest : List Char}
    (h : afterSegment cs = c :: rest) : isSeparator c = true := by
  have hhead := List.head?_dropWhile_not (fun c => !isSeparator c) cs
  simp only [afterSegment] at h
  simpa [h] using hhead

/-- Reads a jump that ends the instruction, behind a destination and a computation; `start` is the
number of characters before it. -/
def jumpFrom (dest : Option String) (comp : String) (compStart start : Nat) (cs : List Char) :
    Except Fault Fields :=
  let jump := segment cs
  match afterSegment cs with
  | '=' :: _ =>
    let shape := if dest.isSome then .repeatedEquals else .equalsAfterSemicolon
    .error ⟨shape, start + jump.length⟩
  | _ :: _ => .error ⟨.repeatedSemicolon, start + jump.length⟩
  | [] =>
    if jump.isEmpty then .error ⟨.emptyJump, start⟩
    else .ok ⟨dest, comp, some (String.ofList jump), compStart + 1, start + 1⟩

/-- Reads a computation and what follows it; `start` is the number of characters before it. -/
def compFrom (dest : Option String) (start : Nat) (cs : List Char) : Except Fault Fields :=
  let comp := segment cs
  match afterSegment cs with
  | '=' :: _ => .error ⟨.repeatedEquals, start + comp.length⟩
  | _ :: rest =>
    if comp.isEmpty then .error ⟨.emptyComputation, start⟩
    else jumpFrom dest (String.ofList comp) start (start + comp.length + 1) rest
  | [] =>
    if comp.isEmpty then .error ⟨.emptyComputation, start⟩
    else .ok ⟨dest, String.ofList comp, none, start + 1, 0⟩

/-- The fields of a compute instruction that is written without blanks. -/
def fieldsOfChars (cs : List Char) : Except Fault Fields :=
  match afterSegment cs with
  | '=' :: rest =>
    -- An equals sign behind a semicolon is not the first separator, and left to the parts behind.
    let dest := segment cs
    if dest.isEmpty then .error ⟨.emptyDestination, 0⟩
    else compFrom (some (String.ofList dest)) (dest.length + 1) rest
  | _ => compFrom none 0 cs

/-- The fields of a compute line: those of its text up to the first blank. -/
def fields (line : String) : Except Fault Fields :=
  fieldsOfChars (Text.untilBlank line.toList)

end Source

end HackToolchain
