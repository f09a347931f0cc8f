import HackToolchain.Path
import HackToolchain.Text.Utf8

/-!
# Directories

A directory holds files and folders. A written path is followed from the directory, or from the root
if it begins with a slash: each part but the last has to be a folder, a single dot and an empty part
stay where they are, and a double dot leads to the folder above. Nothing is known of the places
outside the directory except that they are folders.

Opening a file for writing creates it in an existing folder; a trailing slash asks for a folder and
is refused.
-/

namespace HackToolchain

/-- What stands at a place. -/
inductive Node where
  | file (content : Text.Utf8.Bytes)
  | folder
  deriving DecidableEq

/-- The names that lead to a place from the directory. A place above it begins with double dots, and
a place below the root with a slash. -/
abbrev Place := List String

/-- The folder above a place. -/
def Place.parent (p : Place) : Place :=
  if p = ["/"] then p
  else if p.all (· == "..") then p ++ [".."]
  else p.dropLast

/-- The places of which nothing is known but that they are folders. -/
def Place.isOutside (p : Place) : Bool :=
  p == ["/"] || p.all (· == "..")

/-- The nodes at the places. -/
structure Directory where
  nodes : List (Place × Node)
  deriving DecidableEq

namespace Directory

/-- A directory without files. -/
def empty : Directory := ⟨[]⟩

/-- Why a path is not opened. -/
inductive Fault where
  | notFound (path : String)
  | notDirectory (path : String)
  | isDirectory (path : String)
  | nameTooLong (path : String)
  | nullCharacter
  deriving DecidableEq

/-- The wording of a fault. -/
def Fault.message : Fault → String
  | notFound path => "[Errno 2] No such file or directory: " ++ Text.quote path
  | notDirectory path => "[Errno 20] Not a directory: " ++ Text.quote path
  | isDirectory path => "[Errno 21] Is a directory: " ++ Text.quote path
  | nameTooLong path => "[Errno 36] File name too long: " ++ Text.quote path
  | nullCharacter => "embedded null byte"

/-- The greatest number of bytes of a name. -/
def nameMax : Nat := 255

/-- The number of bytes that a written path does not reach. -/
def pathMax : Nat := 4096

/-- Refuses a text that no path can be: no place is looked up for it. -/
def checkPath (path : String) : Except Fault Unit :=
  if path.toList.contains '\x00' then .error .nullCharacter
  else if path = "" then .error (.notFound path)
  else if pathMax ≤ (Text.Utf8.encode path).length then .error (.nameTooLong path)
  else .ok ()

/-- The node at a place. -/
def node? (d : Directory) (p : Place) : Option Node :=
  if p.isOutside then some .folder else d.nodes.lookup p

/-- The directory with a node put at a place. -/
def put (d : Directory) (p : Place) (n : Node) : Directory :=
  if d.nodes.any (·.1 == p) then
    ⟨d.nodes.map fun entry => if entry.1 == p then (p, n) else entry⟩
  else ⟨d.nodes ++ [(p, n)]⟩

/-- The place that one part of a path leads to. -/
def step (path : String) (p : Place) (part : String) : Except Fault Place :=
  if part = "" ∨ part = "." then .ok p
  else if part = ".." then .ok p.parent
  else if nameMax < (Text.Utf8.encode part).length then .error (.nameTooLong path)
  else .ok (p ++ [part])

/-- Fails unless a place is a folder. -/
def requireFolder (d : Directory) (path : String) (p : Place) : Except Fault Unit :=
  match d.node? p with
  | none => .error (.notFound path)
  | some (.file _) => .error (.notDirectory path)
  | some .folder => .ok ()

/-- The place that a part of a path leads to from a place that has to be a folder. -/
def enter (d : Directory) (path : String) (p : Place) (part : String) : Except Fault Place := do
  d.requireFolder path p
  step path p part

/-- The parts of a written path. -/
def partsOf (path : String) : List String :=
  (splitSlash path.toList).map String.ofList

/-- The place at which a written path starts. -/
def startOf (path : String) : Place :=
  if path.toList.head? = some '/' then ["/"] else []

/-- The place that a written path leads to, whether or not anything stands there. -/
def resolve (d : Directory) (path : String) : Except Fault Place := do
  checkPath path
  (partsOf path).foldlM (d.enter path) (startOf path)

/-- The node that a written path leads to. -/
def find (d : Directory) (path : String) : Except Fault Node := do
  let place ← d.resolve path
  match d.node? place with
  | some node => .ok node
  | none => .error (.notFound path)

/-- The bytes of the file that a written path leads to. -/
def read (d : Directory) (path : String) : Except Fault Text.Utf8.Bytes := do
  match ← d.find path with
  | .file content => .ok content
  | .folder => .error (.isDirectory path)

/-- The place of a file that is to be written. A trailing slash is refused before the last name is
looked up. -/
def target (d : Directory) (path : String) : Except Fault Place := do
  checkPath path
  let parts := (partsOf path).filter (· ≠ "")
  let folder ← parts.dropLast.foldlM (d.enter path) (startOf path)
  d.requireFolder path folder
  if path.toList.getLast? = some '/' then .error (.isDirectory path)
  else
    let place ← step path folder (parts.getLast?.getD "")
    match d.node? place with
    | some .folder => .error (.isDirectory path)
    | _ => .ok place

/-- The directory after a text has been written to a file. -/
def write (d : Directory) (path text : String) : Except Fault Directory := do
  let place ← d.target path
  return d.put place (.file (Text.Utf8.encode text))

/-- The directory with a node at the place of the given names, and folders on the way to it. -/
def insert (d : Directory) (names : List String) (n : Node) : Directory :=
  let folders := (List.range names.length).map fun i => names.take i
  let missing := folders.filter fun p => (d.node? p).isNone
  (missing.foldl (fun d p => d.put p .folder) d).put names n

/-- The directory of some files and folders. -/
def ofNodes (nodes : List (String × Node)) : Directory :=
  nodes.foldl (fun d entry => d.insert (Path.namesOf entry.1.toList) entry.2) empty

/-- A place in the directory itself. -/
def isInside (p : Place) : Bool :=
  p.head? != some "/" && p.head? != some ".."

/-- The files in a directory that an earlier state of it does not hold with the same content. -/
def changes (before after : Directory) : List (String × Text.Utf8.Bytes) :=
  (after.nodes.filter fun entry => isInside entry.1).filterMap fun entry =>
    match entry.2 with
    | .folder => none
    | .file content =>
      if before.node? entry.1 = some (.file content) then none
      else some ("/".intercalate entry.1, content)

end Directory

end HackToolchain
