import HackToolchain.Text.Quoted

/-!
# Paths

A path is a root, which may be missing, and the names that lead on from it. Empty names and single
dots carry no meaning and are dropped; a double dot is a name like any other. Exactly two leading
slashes form a root of their own.

The suffix of a name begins at its last dot, if something stands before and behind that dot.
-/

namespace HackToolchain

/-- The parts of a list of characters between slashes. -/
def splitSlash : List Char → List (List Char)
  | [] => [[]]
  | c :: cs =>
    if c = '/' then [] :: splitSlash cs
    else match splitSlash cs with
      | [] => [[c]]
      | part :: parts => (c :: part) :: parts

/-- The root of a path and the names behind it. -/
structure Path where
  root : String
  names : List String
  deriving DecidableEq

namespace Path

/-- The root of a written path: none, one slash, or two. -/
def rootOf (cs : List Char) : String :=
  match (cs.takeWhile (· = '/')).length with
  | 0 => ""
  | 2 => "//"
  | _ => "/"

/-- The names of a written path. -/
def namesOf (cs : List Char) : List String :=
  ((splitSlash cs).map String.ofList).filter fun part => part ≠ "" && part ≠ "."

/-- The path that a text denotes. -/
def ofText (s : String) : Path :=
  ⟨rootOf s.toList, namesOf s.toList⟩

/-- The written form of a path. -/
def text (p : Path) : String :=
  let written := p.root ++ "/".intercalate p.names
  if written = "" then "." else written

/-- The last name of a path. -/
def name? (p : Path) : Option String :=
  p.names.getLast?

/-- A name without its suffix. -/
def stem (name : String) : String :=
  let cs := name.toList
  let behind := (cs.reverse.takeWhile (· ≠ '.')).length
  if behind = 0 ∨ cs.length ≤ behind + 1 then name
  else String.ofList (cs.take (cs.length - (behind + 1)))

/-- Why a suffix is not replaced. -/
inductive Fault where
  /-- The new suffix does not have the form of a suffix. -/
  | invalidSuffix (suffix : String)
  /-- The path has no last name. -/
  | emptyName (path : Path)
  deriving DecidableEq

/-- The wording of a fault. -/
def Fault.message : Fault → String
  | invalidSuffix suffix => "Invalid suffix " ++ Text.quote suffix
  | emptyName path => "PosixPath(" ++ Text.quote path.text ++ ") has an empty name"

/-- A suffix is empty, or it is a dot and at least one more character, none of them a slash. -/
def isSuffix (suffix : String) : Bool :=
  match suffix.toList with
  | [] => true
  | c :: cs => c == '.' && !cs.isEmpty && !cs.contains '/'

/-- The path with another suffix. -/
def withSuffix (p : Path) (suffix : String) : Except Fault Path :=
  if !isSuffix suffix then .error (.invalidSuffix suffix)
  else match p.name? with
    | none => .error (.emptyName p)
    | some name => .ok { p with names := p.names.dropLast ++ [stem name ++ suffix] }

end Path

end HackToolchain
