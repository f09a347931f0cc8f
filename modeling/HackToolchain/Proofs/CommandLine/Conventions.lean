import HackToolchain.CommandLine.Conventions
import HackToolchain.Proofs.Directory.Writing
import HackToolchain.Proofs.Source.Shape

/-!
# The conventional library is as documented

The conventional library refuses arguments with the status that is documented, makes the paths of a
request from texts, and takes a file that can be read as the input and a path at which a file can be
written as the output.
-/

namespace HackToolchain

variable {d : Directory} {path : Path} {place : Place} {bytes : Text.Utf8.Bytes}
variable {text input output : String} {arguments : List String}

/-! ### Invocations -/

section Invocations

variable {κ ρ : Type} {forms : List (OptionForm κ)} {information? : κ → Option (List String)}
variable {check : Arguments κ → Except Refusal ρ} {r : ρ} {status : Nat} {errors : List String}

theorem Refusal.status_of_invocation {refusal : Refusal}
    (h : (refusal.invocation : Invocation ρ) = .refuse status errors) : status = 2 := by
  cases refusal with
  | usage =>
    cases h
    rfl
  | lookup fault => cases h

namespace Arguments

/-- Whatever is refused is refused by a refusal. -/
theorem status_of_invocation
    (h : invocation forms information? check arguments = .refuse status errors) : status = 2 := by
  rw [invocation] at h
  cases hscan : scan forms arguments with
  | error refusal =>
    rw [hscan] at h
    exact Refusal.status_of_invocation h
  | ok a =>
    simp only [hscan] at h
    split at h
    · cases h
    · split at h
      · exact Refusal.status_of_invocation h
      · cases h

/-- A request that is made of some arguments has been checked. -/
theorem exists_check_of_invocation (h : invocation forms information? check arguments = .call r) :
    ∃ a, check a = .ok r := by
  have hrefusal (refusal : Refusal) : (refusal.invocation : Invocation ρ) ≠ .call r := by
    cases refusal <;> exact nofun
  rw [invocation] at h
  cases hscan : scan forms arguments with
  | error refusal =>
    rw [hscan] at h
    exact absurd h (hrefusal refusal)
  | ok a =>
    simp only [hscan] at h
    split at h
    · cases h
    · split at h
      · exact absurd h (hrefusal _)
      · next hcheck =>
        cases h
        exact ⟨a, hcheck⟩

end Arguments

end Invocations

/-! ### Checks -/

/-- What every step keeps is kept by all of them. -/
theorem of_foldlM {ε α β : Type} {step : β → α → Except ε β} {l : List α} {b b' : β} {P : β → Prop}
    (hstep : ∀ a b b', P b → step b a = .ok b' → P b') (hb : P b) (h : l.foldlM step b = .ok b') :
    P b' := by
  induction l generalizing b with
  | nil =>
    obtain rfl := Except.ok.inj h
    exact hb
  | cons a l ih =>
    rw [List.foldlM_cons, Directory.bind_eq_ok_iff] at h
    obtain ⟨middle, hfirst, hrest⟩ := h
    exact ih (hstep a b middle hb hfirst) hrest

namespace Arguments

theorem eq_of_existing (h : existing d text = .ok path) : path = .ofText text := by
  rw [existing, Directory.bind_eq_ok_iff] at h
  obtain ⟨node, -, h⟩ := h
  split at h
  · exact (Except.ok.inj h).symm
  · simp at h

theorem eq_of_creatable (h : creatable d text = .ok path) : path = .ofText text := by
  rw [creatable, Directory.bind_eq_ok_iff] at h
  obtain ⟨node, -, h⟩ := h
  split at h
  · simp at h
  · exact (Except.ok.inj h).symm

/-- A file that can be read exists. -/
theorem existing_of_read (h : d.read text = .ok bytes) : existing d text = .ok (.ofText text) := by
  rw [Directory.read, Directory.bind_eq_ok_iff] at h
  obtain ⟨node, hfind, hnode⟩ := h
  cases node with
  | folder => simp at hnode
  | file content =>
    rw [existing, lookup, hfind]
    rfl

/-- A path at which a file can be written is no folder. -/
theorem creatable_of_target (h : d.target text = .ok place) :
    creatable d text = .ok (.ofText text) := by
  have hnode : d.node? place ≠ some .folder := by
    obtain ⟨-, -, -, -, -, -, hplace⟩ := Directory.target_eq_ok_iff.1 h
    exact hplace
  have hlookup : lookup d text = .ok (d.node? place) := by
    rw [lookup, Directory.find, Directory.resolve_of_target h]
    cases hplace : d.node? place <;> simp [bind, Except.bind, hplace]
  rw [creatable, hlookup]
  cases hplace : d.node? place with
  | none => rfl
  | some node =>
    cases node with
    | folder => exact absurd hplace hnode
    | file content => rfl

/-- The input is made from a text. -/
theorem exists_text_of_input {κ : Type} {a : Arguments κ} (h : a.input d = .ok path) :
    ∃ text, path = .ofText text := by
  rw [Arguments.input] at h
  split at h
  · simp at h
  · next text rest _ =>
    obtain ⟨existing, hexisting, h⟩ := Directory.bind_eq_ok_iff.1 h
    split at h
    · obtain rfl := Except.ok.inj h
      exact ⟨text, eq_of_existing hexisting⟩
    · simp at h

/-- The input and the output of a request are made from texts, if every option that is taken keeps
the output so. -/
theorem exists_text_of_foldlM {κ ο : Type} [BEq κ] {a : Arguments κ}
    {take : ο → κ × String → Except Refusal ο} {start options : ο} {output? : ο → Option Path}
    {source : Path}
    (htake : ∀ option o o', (∀ path, output? o = some path → ∃ text, path = .ofText text) →
      take o option = .ok o' → ∀ path, output? o' = some path → ∃ text, path = .ofText text)
    (hstart : output? start = none) (hoptions : a.settled.foldlM take start = .ok options)
    (hsource : a.input d = .ok source) (path : Path)
    (hpath : path = source ∨ output? options = some path) : ∃ text, path = .ofText text := by
  rcases hpath with rfl | houtput
  · exact exists_text_of_input hsource
  · exact of_foldlM (P := fun o => ∀ path, output? o = some path → ∃ text, path = .ofText text)
      htake (by simp [hstart]) hoptions path houtput

end Arguments

/-! ### The assembler -/

namespace AssemblerTool

variable {a : Arguments Choice} {r : Request} {o o' : Options}

theorem Options.take_output {target : Path} (h : Arguments.creatable d text = .ok target) :
    o.take d (.output, text) = .ok { o with output := some target } := by
  rw [take, h]
  rfl

/-- The output path of some options is made from a text. -/
theorem Options.exists_text_of_take {option : Choice × String}
    (ho : ∀ path, o.output = some path → ∃ text, path = .ofText text)
    (h : o.take d option = .ok o') (path : Path) (hpath : o'.output = some path) :
    ∃ text, path = .ofText text := by
  obtain ⟨key, text⟩ := option
  cases key with
  | output =>
    cases htarget : Arguments.creatable d text with
    | error refusal => simp [take, htarget, bind, Except.bind, Except.map] at h
    | ok target =>
      rw [take_output htarget] at h
      obtain rfl := Except.ok.inj h
      obtain rfl : target = path := Option.some.inj hpath
      exact ⟨text, Arguments.eq_of_creatable htarget⟩
  | listing | symbols | variableBase =>
    obtain ⟨_, -, rfl⟩ := map_eq_ok_iff.1 h
    exact ho path hpath
  | verbose | rangeCheck | noRangeCheck | version | help =>
    obtain rfl := Except.ok.inj h
    exact ho path hpath

theorem Request.exists_text_of_ofArguments (h : Request.ofArguments d a = .ok r) (path : Path)
    (hpath : path = r.input ∨ r.output = some path) : ∃ text, path = .ofText text := by
  rw [Request.ofArguments] at h
  obtain ⟨options, hoptions, h⟩ := Directory.bind_eq_ok_iff.1 h
  obtain ⟨input, hinput, h⟩ := Directory.bind_eq_ok_iff.1 h
  obtain rfl := Except.ok.inj h
  exact Arguments.exists_text_of_foldlM (fun _ _ _ => Options.exists_text_of_take) rfl hoptions hinput
    path hpath

/-- Two file names are found among their arguments. -/
theorem assembler_fileArguments (hinput : d.read input = .ok bytes)
    (houtput : d.target output = .ok place) :
    CommandLibrary.conventional.assembler (CommandLibrary.fileArguments input output) d =
      .call { input := .ofText input, output := some (.ofText output) } := by
  have hscan : Arguments.scan forms (CommandLibrary.fileArguments input output) =
      .ok ⟨[(.output, output)], [input]⟩ := rfl
  have hsettled : (⟨[(.output, output)], [input]⟩ : Arguments Choice).settled =
      [(.output, output)] := rfl
  have hchoice : (⟨[(.output, output)], [input]⟩ : Arguments Choice).choice?
      .rangeCheck .noRangeCheck = none := rfl
  have hpath : (⟨[(.output, output)], [input]⟩ : Arguments Choice).input d =
      .ok (.ofText input) := by
    simp only [Arguments.input, Arguments.existing_of_read hinput]
    rfl
  have hcheck : Request.ofArguments d ⟨[(.output, output)], [input]⟩ =
      .ok { input := .ofText input, output := some (.ofText output) } := by
    simp only [Request.ofArguments, hsettled, hchoice, hpath, List.foldlM_cons, List.foldlM_nil,
      Options.take_output (Arguments.creatable_of_target houtput)]
    rfl
  simp only [CommandLibrary.conventional, Arguments.invocation, hscan, hcheck]
  rfl

end AssemblerTool

/-! ### The disassembler -/

namespace DisassemblerTool

variable {a : Arguments Choice} {r : Request} {o o' : Options}

theorem Options.take_output {target : Path} (h : Arguments.creatable d text = .ok target) :
    o.take d (.output, text) = .ok { o with output := some target } := by
  rw [take, h]
  rfl

/-- The output path of some options is made from a text. -/
theorem Options.exists_text_of_take {option : Choice × String}
    (ho : ∀ path, o.output = some path → ∃ text, path = .ofText text)
    (h : o.take d option = .ok o') (path : Path) (hpath : o'.output = some path) :
    ∃ text, path = .ofText text := by
  obtain ⟨key, text⟩ := option
  cases key with
  | output =>
    cases htarget : Arguments.creatable d text with
    | error refusal => simp [take, htarget, bind, Except.bind, Except.map] at h
    | ok target =>
      rw [take_output htarget] at h
      obtain rfl := Except.ok.inj h
      obtain rfl : target = path := Option.some.inj hpath
      exact ⟨text, Arguments.eq_of_creatable htarget⟩
  | symbols | count =>
    obtain ⟨_, -, rfl⟩ := map_eq_ok_iff.1 h
    exact ho path hpath
  | addresses | verbose | version | help =>
    obtain rfl := Except.ok.inj h
    exact ho path hpath

theorem Request.exists_text_of_ofArguments (h : Request.ofArguments d a = .ok r) (path : Path)
    (hpath : path = r.input ∨ r.output = some path) : ∃ text, path = .ofText text := by
  rw [Request.ofArguments] at h
  obtain ⟨options, hoptions, h⟩ := Directory.bind_eq_ok_iff.1 h
  obtain ⟨input, hinput, h⟩ := Directory.bind_eq_ok_iff.1 h
  obtain rfl := Except.ok.inj h
  exact Arguments.exists_text_of_foldlM (fun _ _ _ => Options.exists_text_of_take) rfl hoptions hinput
    path hpath

/-- Two file names are found among their arguments. -/
theorem disassembler_fileArguments (hinput : d.read input = .ok bytes)
    (houtput : d.target output = .ok place) :
    CommandLibrary.conventional.disassembler (CommandLibrary.fileArguments input output) d =
      .call { input := .ofText input, output := some (.ofText output) } := by
  have hscan : Arguments.scan forms (CommandLibrary.fileArguments input output) =
      .ok ⟨[(.output, output)], [input]⟩ := rfl
  have hsettled : (⟨[(.output, output)], [input]⟩ : Arguments Choice).settled =
      [(.output, output)] := rfl
  have hpath : (⟨[(.output, output)], [input]⟩ : Arguments Choice).input d =
      .ok (.ofText input) := by
    simp only [Arguments.input, Arguments.existing_of_read hinput]
    rfl
  have hcheck : Request.ofArguments d ⟨[(.output, output)], [input]⟩ =
      .ok { input := .ofText input, output := some (.ofText output) } := by
    simp only [Request.ofArguments, hsettled, hpath, List.foldlM_cons, List.foldlM_nil,
      Options.take_output (Arguments.creatable_of_target houtput)]
    rfl
  simp only [CommandLibrary.conventional, Arguments.invocation, hscan, hcheck]
  rfl

end DisassemblerTool

/-! ### Both tools -/

/-- The conventional library is as documented. -/
theorem CommandLibrary.documented_conventional : conventional.Documented where
  assembler_refusal _ _ _ _ h := Arguments.status_of_invocation h
  disassembler_refusal _ _ _ _ h := Arguments.status_of_invocation h
  assembler_path _ _ _ h := by
    obtain ⟨a, ha⟩ := Arguments.exists_check_of_invocation h
    exact AssemblerTool.Request.exists_text_of_ofArguments ha
  disassembler_path _ _ _ h := by
    obtain ⟨a, ha⟩ := Arguments.exists_check_of_invocation h
    exact DisassemblerTool.Request.exists_text_of_ofArguments ha
  assembler_files _ _ _ _ _ hinput houtput :=
    AssemblerTool.assembler_fileArguments hinput houtput
  disassembler_files _ _ _ _ _ hinput houtput :=
    DisassemblerTool.disassembler_fileArguments hinput houtput

end HackToolchain
