import HackToolchain.CommandLine.Conventions
import HackToolchain.CommandLine.Tool

/-!
# The program

The first argument names the tool and the others are its arguments. The program looks at the files
that the arguments may name, runs the tool on this view of the disk, and carries out what it has
printed and written.
-/

namespace HackToolchain.Disk

/-- The folders on the way to the place of a written path, and the place itself. -/
def stations (path : String) : List String :=
  let parts := Directory.partsOf path
  (List.range parts.length).map fun i => "/".intercalate (parts.take (i + 1))

/-- The paths that an argument may name: the argument itself, and a value that is attached to an
option. -/
def mentioned (argument : String) : List String :=
  let attached := argument.toList.dropWhile (· ≠ '=')
  [argument, String.ofList (attached.drop 1), String.ofList (argument.toList.drop 2)]

/-- A path, and the paths beside it to which the machine code may go. -/
def withOutput (e : Environment) (path : String) : List String :=
  match (Path.ofText path).withSuffix (Settings.ofEnvironment e).outputSuffix with
  | .ok output => [path, output.text]
  | .error _ => [path]

/-- What stands at a path of the disk. A folder refuses to be read as a file. -/
def probe (path : String) : IO (Option Node) := do
  try
    let content ← IO.FS.readBinFile path
    return some (.file content.toList)
  catch failure =>
    match failure with
    | .inappropriateType .. => return some .folder
    | _ => return none

/-- The part of the disk that the paths lead to. -/
def view (paths : List String) : IO Directory := do
  let mut d := Directory.empty
  for path in (paths.flatMap stations).eraseDups do
    match ← probe path, d.resolve path with
    | some node, .ok place => if !place.isOutside then d := d.put place node
    | _, _ => pure ()
  return d

/-- The written form of a place. -/
def diskPath (p : Place) : String :=
  match p with
  | "/" :: names => "/" ++ "/".intercalate names
  | names => "/".intercalate names

/-- Writes the files in which a directory differs from what was seen on the disk. -/
def carryOut (before after : Directory) : IO Unit := do
  for (place, node) in after.nodes do
    match node with
    | .file content =>
      if before.node? place ≠ some node then
        IO.FS.writeBinFile (diskPath place) (ByteArray.mk content.toArray)
    | .folder => pure ()

/-- The variables of the environment that the settings look at. -/
def environment : IO Environment := do
  return {
    variableBase := ← IO.getEnv "HACK_ASM_VARIABLE_BASE"
    outputSuffix := ← IO.getEnv "HACK_ASM_OUTPUT_SUFFIX"
    rangeCheck := ← IO.getEnv "HACK_ASM_RANGE_CHECK" }

/-- Runs a tool on the disk. -/
def execute (t : Tool) (arguments : List String) : IO UInt32 := do
  let e ← environment
  let d ← view ((arguments.flatMap mentioned).flatMap (withOutput e))
  match t.run .conventional arguments e d with
  | .refused status errors =>
    IO.eprint (Text.closeLines errors)
    return status.toUInt32
  | .broken failure =>
    IO.eprintln failure.message
    return Tool.brokenStatus.toUInt32
  | .finished report =>
    carryOut d report.directory
    IO.print report.outputText
    IO.eprint report.errorText
    return report.status.toUInt32

end HackToolchain.Disk

/-- Runs the tool that the first argument names. -/
def main (arguments : List String) : IO UInt32 := do
  match arguments with
  | name :: rest =>
    match HackToolchain.Tool.ofName? name with
    | some t => HackToolchain.Disk.execute t rest
    | none =>
      IO.eprintln ("no such tool: " ++ name)
      return 2
  | [] =>
    IO.eprintln "a tool has to be named"
    return 2
