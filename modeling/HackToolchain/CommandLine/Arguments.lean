import HackToolchain.Directory
import HackToolchain.Text.Numeral

/-!
# Command-line arguments

Options may stand anywhere among the arguments. A long option begins with two dashes and may have
its value attached by an equals sign; short options are single letters behind one dash, several of
which may be written together, and the value of the last one may follow at once. An option that
needs a value and has none attached takes the next argument, whatever it looks like. Two dashes
alone end the options, and a single dash is an ordinary argument.

The values are checked one after the other: those of the options in the order in which each option
is first given, then the input. Of an option that is given several times the last value counts.
-/

namespace HackToolchain

/-- Why a tool does not begin its work. -/
inductive Refusal where
  /-- The arguments are not those of the tool. -/
  | usage
  /-- A path cannot be looked up; this is no fault of usage. -/
  | lookup (fault : Directory.Fault)
  deriving DecidableEq

/-- How an option is written, and whether it takes a value. -/
structure OptionForm (κ : Type) where
  key : κ
  long : String
  short : Option Char
  takesValue : Bool

/-- The options in the order in which they are given, each with its value or an empty text, and the
other arguments. -/
structure Arguments (κ : Type) where
  options : List (κ × String)
  others : List String

namespace Arguments

variable {κ : Type}

/-- Options read from one argument, and the option that still waits for a value. -/
structure Found (κ : Type) where
  options : List (κ × String)
  waiting : Option κ

/-- The name of a long option and the value that is attached to it. -/
def splitLong (cs : List Char) : List Char × Option String :=
  (cs.takeWhile (· ≠ '='),
    match cs.dropWhile (· ≠ '=') with
    | _ :: value => some (String.ofList value)
    | [] => none)

/-- The long option of an argument. -/
def findLong (forms : List (OptionForm κ)) (name : List Char) : Option (OptionForm κ) :=
  forms.find? fun form => form.long.toList == name

/-- A long option with the value attached to it. -/
def readLong (form : OptionForm κ) (value : Option String) : Except Refusal (Found κ) :=
  match form.takesValue, value with
  | true, some value => .ok ⟨[(form.key, value)], none⟩
  | true, none => .ok ⟨[], some form.key⟩
  | false, some _ => .error .usage
  | false, none => .ok ⟨[(form.key, "")], none⟩

/-- Short options that are written together. -/
def readShort (forms : List (OptionForm κ)) : List Char → Except Refusal (Found κ)
  | [] => .ok ⟨[], none⟩
  | c :: cs =>
    match forms.find? fun form => form.short == some c with
    | none => .error .usage
    | some form =>
      if form.takesValue then
        if cs.isEmpty then .ok ⟨[], some form.key⟩
        else .ok ⟨[(form.key, String.ofList cs)], none⟩
      else
        match readShort forms cs with
        | .ok found => .ok { found with options := (form.key, "") :: found.options }
        | .error refusal => .error refusal

/-- The options of an argument that begins with a dash. -/
def readOption (forms : List (OptionForm κ)) (argument : String) : Except Refusal (Found κ) :=
  let cs := argument.toList
  let (name, value) := splitLong cs
  match findLong forms name with
  | some form => readLong form value
  | none => if cs.take 2 = ['-', '-'] then .error .usage else readShort forms (cs.drop 1)

/-- An argument that begins with a dash and is longer than it. -/
def isOption (argument : String) : Bool :=
  argument.toList.head? == some '-' && 1 < argument.toList.length

/-- Arguments with options in front of them. -/
def withOptions (options : List (κ × String)) (a : Arguments κ) : Arguments κ :=
  { a with options := options ++ a.options }

/-- Finds the options among the arguments. -/
def scan (forms : List (OptionForm κ)) : List String → Except Refusal (Arguments κ)
  | [] => .ok ⟨[], []⟩
  | argument :: rest =>
    if argument = "--" then .ok ⟨[], rest⟩
    else if isOption argument then
      match readOption forms argument with
      | .error refusal => .error refusal
      | .ok found =>
        match found.waiting, rest with
        | none, rest => (scan forms rest).map (withOptions found.options)
        | some _, [] => .error .usage
        | some key, value :: rest =>
          (scan forms rest).map (withOptions (found.options ++ [(key, value)]))
    else (scan forms rest).map fun a => { a with others := argument :: a.others }

variable [BEq κ]

/-- The last value given to an option. -/
def last? (a : Arguments κ) (key : κ) : Option String :=
  a.options.reverse.lookup key

/-- The options that are given, in the order in which each is first given, each with its last
value. -/
def settled (a : Arguments κ) : List (κ × String) :=
  (a.options.map Prod.fst).eraseDups.filterMap fun key =>
    (a.last? key).map fun value => (key, value)

/-- Of two opposite options, whether the first one is given last. -/
def choice? (a : Arguments κ) (yes no : κ) : Option Bool :=
  a.options.reverse.findSome? fun given =>
    if given.1 == yes then some true else if given.1 == no then some false else none

/-- What stands at a path; nothing if it cannot be reached. -/
def lookup (d : Directory) (text : String) : Except Refusal (Option Node) :=
  match d.find text with
  | .ok node => .ok (some node)
  | .error .nullCharacter => .error (.lookup .nullCharacter)
  | .error _ => .ok none

/-- The path of a file that has to exist. -/
def existing (d : Directory) (text : String) : Except Refusal Path := do
  match ← lookup d text with
  | some (.file _) => .ok (.ofText text)
  | _ => .error .usage

/-- The path of a file that may be created. -/
def creatable (d : Directory) (text : String) : Except Refusal Path := do
  match ← lookup d text with
  | some .folder => .error .usage
  | _ => .ok (.ofText text)

/-- The integer of a text, if it satisfies `allowed`. -/
def integer (allowed : Int → Bool) (text : String) : Except Refusal Int :=
  match Text.Numeral.readInt text with
  | .ok value => if allowed value then .ok value else .error .usage
  | .error _ => .error .usage

/-- The one input file. -/
def input (a : Arguments κ) (d : Directory) : Except Refusal Path :=
  match a.others with
  | [] => .error .usage
  | text :: rest => do
    let path ← existing d text
    match rest with
    | [] => .ok path
    | _ :: _ => .error .usage

end Arguments

end HackToolchain
