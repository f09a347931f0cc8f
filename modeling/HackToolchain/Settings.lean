import HackToolchain.Machine
import HackToolchain.Path
import HackToolchain.Text.Numeral

/-!
# Settings

The settings of an assembly are the first address of variables, the suffix of the output file, and
whether addresses are held below a limit. The environment may replace the first three; a value that
is empty or cannot be used is ignored.
-/

namespace HackToolchain

/-- The settings of an assembly. -/
structure Settings where
  variableBase : Int := Machine.variableBase
  outputSuffix : String := ".hack"
  rangeCheck : Bool := true
  maxAddress : Int := Machine.addressMax
  deriving DecidableEq

/-- The settings without any choice of the user. -/
def Settings.default : Settings := {}

/-- The limit of addresses, if they are held below one. -/
def Settings.limit (s : Settings) : Option Int :=
  if s.rangeCheck then some s.maxAddress else none

/-- The values that the environment gives to the settings. -/
structure Environment where
  variableBase : Option String
  outputSuffix : Option String
  rangeCheck : Option String

namespace Environment

/-- The values among the variables of an environment. -/
def ofVariables (entries : List (String × String)) : Environment where
  variableBase := entries.lookup "HACK_ASM_VARIABLE_BASE"
  outputSuffix := entries.lookup "HACK_ASM_OUTPUT_SUFFIX"
  rangeCheck := entries.lookup "HACK_ASM_RANGE_CHECK"

/-- A value that is given and not empty. -/
def given (value : Option String) : Option String :=
  value.filter fun s => !s.isEmpty

/-- The first address of variables: an integer that an instruction can load. -/
def base? (e : Environment) : Option Int := do
  let text ← given e.variableBase
  match Text.Numeral.readInt text with
  | .ok value => if 0 ≤ value ∧ value ≤ Machine.addressMax then some value else none
  | .error _ => none

/-- The name on which a suffix is tried. -/
def sampleName : String := "prog"

/-- Whether a suffix can be used: it is more than a dot, and the sample gets it at the end of its
name. -/
def isUsable (suffix : String) : Bool :=
  decide (1 < suffix.toList.length) &&
    match (Path.ofText sampleName).withSuffix suffix with
    | .ok path => path.name? == some (sampleName ++ suffix)
    -- A suffix that is refused there is ignored like any other useless value.
    | .error _ => false

/-- The suffix of the output file; a dot in front may be left out. -/
def suffix? (e : Environment) : Option String := do
  let text ← given e.outputSuffix
  let suffix := if text.toList.head? = some '.' then text else "." ++ text
  if isUsable suffix then some suffix else none

/-- The texts that switch a check off. -/
def offTexts : List String := ["0", "false", "no", "off"]

/-- Whether addresses are held below the limit: unless the text, without outer blanks and in small
letters, switches the check off. -/
def check? (e : Environment) : Option Bool := do
  let text ← given e.rangeCheck
  return !offTexts.contains (String.ofList ((Text.trim text).toList.map Char.toLower))

end Environment

/-- The settings that an environment asks for. -/
def Settings.ofEnvironment (e : Environment) : Settings where
  variableBase := e.base?.getD Settings.default.variableBase
  outputSuffix := e.suffix?.getD Settings.default.outputSuffix
  rangeCheck := e.check?.getD Settings.default.rangeCheck
  maxAddress := Settings.default.maxAddress

end HackToolchain
