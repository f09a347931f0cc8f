import HackToolchain.CommandLine.Tool
import HackToolchain.Proofs.CommandLine.Conventions
import HackToolchain.Proofs.Disassembly.Canonical
import HackToolchain.Proofs.Session.Calls

/-!
# Effects of the tools

Whatever a command-line library makes of some arguments, only a request can change the directory, and
only once its input has been converted: if the source cannot be assembled, or a word cannot be decoded
or the symbols cannot be read, the tool ends with a status that is not zero and leaves every file as it
is. A request whose input is converted changes nothing but the files that it asks for, even if one of
these cannot be written in the end.
-/

namespace HackToolchain

variable {c : CommandLibrary} {arguments : List String} {e : Environment} {d : Directory}
variable {printed : String → String} {f : Failure} {words : List Word}

deriving instance DecidableEq for AssemblerTool.Options
deriving instance DecidableEq for AssemblerTool.Request

/-! ### The end of a run -/

namespace Outcome

/-- The exit status. -/
def status : Outcome → Nat
  | refused status _ => status
  | broken _ => Tool.brokenStatus
  | finished report => report.status

/-- The lines of the first stream. -/
def output : Outcome → List String
  | finished report => report.output
  | refused _ _ | broken _ => []

/-- The directory that is left by a run in a given one. -/
def directory (d : Directory) : Outcome → Directory
  | finished report => report.directory
  | refused _ _ | broken _ => d

/-- The run fails and leaves its directory as it is. -/
structure LeavesAlone (o : Outcome) (d : Directory) : Prop where
  status_ne_zero : o.status ≠ 0
  directory_eq : o.directory d = d

end Outcome

/-- A complaint ends a run with a status that is not zero. -/
theorem Complaint.status_ne_zero (c : Complaint) : c.status ≠ 0 := by
  cases c <;> simp [status]

/-! ### Tools that are not called -/

namespace Invocation

variable {ρ : Type} {i : Invocation ρ} {perform : ρ → Outcome}

/-- A tool that is not called changes nothing. It fails and prints nothing unless information is
asked for, if a refusal is told by its status. -/
theorem outcome_of_not_call (hstatus : ∀ status errors, i = .refuse status errors → status ≠ 0)
    (h : ∀ r, i ≠ .call r) : (i.outcome d perform).directory d = d ∧
      ((∀ output, i ≠ .inform output) →
        (i.outcome d perform).LeavesAlone d ∧ (i.outcome d perform).output = []) := by
  cases i with
  | call r => exact absurd rfl (h r)
  | inform output => exact ⟨rfl, fun hinform => absurd rfl (hinform output)⟩
  | refuse status errors => exact ⟨rfl, fun _ => ⟨⟨hstatus status errors rfl, rfl⟩, rfl⟩⟩
  | fail failure => exact ⟨rfl, fun _ => ⟨⟨Nat.succ_ne_zero 0, rfl⟩, rfl⟩⟩

end Invocation

/-! ### The assembler -/

namespace AssemblerTool

variable {r : Request} {code : Path}

/-- The path of the machine code of a request. -/
def Request.outputPath (r : Request) (e : Environment) : Except Failure Path :=
  r.output.elim ((Assembler.start (r.settings e)).outputBeside r.input) .ok

/-- The files that a request asks for; none if the path of the machine code is not known. -/
def Request.paths (r : Request) (e : Environment) : List String :=
  match r.outputPath e with
  | .error _ => []
  | .ok code => (outputs r code).map (·.path.text)

/-- The attempt to assemble the source of a request. -/
def Request.attempt (r : Request) (e : Environment) (d : Directory) : Attempt :=
  .ofFile (r.settings e) d r.input

/-- The program of a request whose source is assembled. -/
def Request.program (r : Request) (e : Environment) (d : Directory) : Program :=
  ((Assembler.start (r.settings e)).record (r.attempt e d)).program

/-- A list of outputs changes nothing but its own files. -/
theorem writeAll_changedAt (p : Program) (d : Directory) (outputs : List Output) :
    d.SameFolders (writeAll p d outputs).directory ∧
      d.ChangedAt (writeAll p d outputs).directory (outputs.map (·.path.text)) := by
  induction outputs generalizing d with
  | nil => exact ⟨.refl d, .refl d _⟩
  | cons o rest ih =>
    rw [writeAll]
    cases hwrite : d.write o.path.text (p.outputText o.kind) with
    | error fault => exact ⟨.refl d, .refl d _⟩
    | ok written =>
      have hfolders := Directory.sameFolders_write hwrite
      obtain ⟨hrest, hchanged⟩ := ih written
      exact ⟨hfolders.trans hrest, (Directory.changedAt_write hwrite).trans hfolders hchanged⟩

/-- A request ends before its source is read, or with the attempt to assemble it, or with the attempt
to write its files. -/
theorem perform_cases (printed : String → String) (r : Request) (e : Environment) (d : Directory) :
    ((perform printed r e d).status ≠ 0 ∧ (perform printed r e d).directory = d ∧
      ((∃ f, r.outputPath e = .error f) ∨ ∃ f, (r.attempt e d).result = .error f)) ∨
    ∃ code words, r.outputPath e = .ok code ∧ (r.attempt e d).result = .ok words ∧
      (perform printed r e d).directory = (writeAll (r.program e d) d (outputs r code)).directory ∧
      ((perform printed r e d).status = 0 ↔
        (writeAll (r.program e d) d (outputs r code)).fault = none) := by
  have hstart : (Assembler.start (r.settings e)).settings = r.settings e := rfl
  rw [perform, Request.outputPath, Request.attempt]
  simp only [hstart]
  cases hpath : r.output.elim ((Assembler.start (r.settings e)).outputBeside r.input) .ok with
  | error fault => exact .inl ⟨Complaint.status_ne_zero _, rfl, .inl ⟨fault, rfl⟩⟩
  | ok code =>
    cases hresult : (Attempt.ofFile (r.settings e) d r.input).result with
    | error fault => exact .inl ⟨Complaint.status_ne_zero _, rfl, .inr ⟨fault, rfl⟩⟩
    | ok words =>
      refine .inr ⟨code, words, rfl, rfl, ?_⟩
      simp only [Request.program, Request.attempt]
      split
      case h_1 fault hfault =>
        exact ⟨rfl, iff_of_false (Complaint.status_ne_zero _) (by simp [hfault])⟩
      case h_2 hfault => exact ⟨rfl, iff_of_true rfl hfault⟩

/-- A source that is not assembled leaves the directory alone. -/
theorem perform_of_error (h : (r.attempt e d).result = .error f) :
    (perform printed r e d).status ≠ 0 ∧ (perform printed r e d).directory = d := by
  rcases perform_cases printed r e d with ⟨hstatus, hdirectory, -⟩ | ⟨_, _, -, hok, -⟩
  · exact ⟨hstatus, hdirectory⟩
  · simp [h] at hok

/-- A request changes nothing but its files. -/
theorem perform_changedAt (printed : String → String) (r : Request) (e : Environment)
    (d : Directory) :
    d.ChangedAt (perform printed r e d).directory (r.paths e) := by
  rcases perform_cases printed r e d with ⟨-, hdirectory, -⟩ | ⟨code, _, hpath, -, hdirectory, -⟩
  · rw [hdirectory]
    exact .refl d _
  · rw [hdirectory, Request.paths, hpath]
    exact (writeAll_changedAt _ d _).2

end AssemblerTool

/-! ### The disassembler -/

namespace DisassemblerTool

variable {r : Request}

/-- The input and the symbols of a request are read, and every word that is asked for can be
decoded. -/
def Request.Convertible (r : Request) (d : Directory) : Prop :=
  ∃ text symbols, readText d r.input = .ok text ∧ readSymbols r d = .ok symbols ∧
    ∀ word ∈ Disassembly.selected r.count (Text.lines text), Word.IsEmitted (Text.trim word)

theorem readText_eq_ok_iff {path : Path} {text : String} : readText d path = .ok text ↔
    ∃ bytes, d.read path.text = .ok bytes ∧ Text.Utf8.decodeAll bytes = .ok text := by
  rw [readText, Directory.bind_eq_ok_iff]
  constructor
  · rintro ⟨bytes, hread, hdecode⟩
    exact ⟨bytes, mapError_eq_ok_iff.1 hread, mapError_eq_ok_iff.1 hdecode⟩
  · rintro ⟨bytes, hread, hdecode⟩
    exact ⟨bytes, mapError_eq_ok_iff.2 hread, mapError_eq_ok_iff.2 hdecode⟩

theorem disassemble_eq_ok_iff {lines : List String} {entries : List Disassembly.Entry} :
    disassemble r d lines = .ok entries ↔ ∃ symbols, readSymbols r d = .ok symbols ∧
      Disassembly.decodeFrom symbols 0 (Disassembly.selected r.count lines) = .ok entries := by
  rw [disassemble, Directory.bind_eq_ok_iff]
  simp only [mapError_eq_ok_iff, Disassembly.decodeWords_eq_decodeFrom]

/-- A request is converted exactly if the symbols are read and every word can be decoded. -/
theorem exists_disassemble_iff {lines : List String} :
    (∃ entries, disassemble r d lines = .ok entries) ↔
      (∃ symbols, readSymbols r d = .ok symbols) ∧
        ∀ word ∈ Disassembly.selected r.count lines, Word.IsEmitted (Text.trim word) := by
  simp only [disassemble_eq_ok_iff]
  constructor
  · rintro ⟨entries, symbols, hsymbols, hentries⟩
    exact ⟨⟨symbols, hsymbols⟩, (Disassembly.exists_decodeFrom_iff symbols 0).1 ⟨entries, hentries⟩⟩
  · rintro ⟨⟨symbols, hsymbols⟩, hwords⟩
    obtain ⟨entries, hentries⟩ := (Disassembly.exists_decodeFrom_iff symbols 0).2 hwords
    exact ⟨entries, symbols, hsymbols, hentries⟩

theorem perform_of_readText {text : String} (h : readText d r.input = .ok text) :
    perform printed r d = .finished (performOn printed r d (Text.lines text)) := by
  obtain ⟨bytes, hread, hdecode⟩ := readText_eq_ok_iff.1 h
  simp only [perform, hread, hdecode]

/-- A request whose input is not read fails and changes nothing. -/
theorem perform_of_unread (h : ∀ text, readText d r.input ≠ .ok text) :
    (perform printed r d).LeavesAlone d ∧ (perform printed r d).output = [] := by
  rw [perform]
  cases hread : d.read r.input.text with
  | error fault => exact ⟨⟨Nat.succ_ne_zero 1, rfl⟩, rfl⟩
  | ok bytes =>
    cases hdecode : Text.Utf8.decodeAll bytes with
    | error fault =>
      simp only [hdecode]
      exact ⟨⟨Nat.succ_ne_zero 0, rfl⟩, rfl⟩
    | ok text => exact absurd (readText_eq_ok_iff.2 ⟨bytes, hread, hdecode⟩) (h text)

/-- A request that is not converted fails, prints nothing and changes nothing. -/
theorem perform_of_not_convertible (h : ¬ r.Convertible d) :
    (perform printed r d).LeavesAlone d ∧ (perform printed r d).output = [] := by
  by_cases hread : ∃ text, readText d r.input = .ok text
  · obtain ⟨text, htext⟩ := hread
    rw [perform_of_readText htext, performOn]
    cases hentries : disassemble r d (Text.lines text) with
    | error f => exact ⟨⟨Complaint.status_ne_zero _, rfl⟩, rfl⟩
    | ok entries =>
      obtain ⟨⟨symbols, hsymbols⟩, hwords⟩ := exists_disassemble_iff.1 ⟨entries, hentries⟩
      exact absurd ⟨text, symbols, htext, hsymbols, hwords⟩ h
  · exact perform_of_unread fun text htext => hread ⟨text, htext⟩

/-- A request changes nothing but its output file. -/
theorem perform_changedAt (printed : String → String) (r : Request) (d : Directory) :
    d.ChangedAt ((perform printed r d).directory d) (r.output.toList.map Path.text) := by
  by_cases hread : ∃ text, readText d r.input = .ok text
  · obtain ⟨text, htext⟩ := hread
    rw [perform_of_readText htext, performOn]
    cases disassemble r d (Text.lines text) with
    | error f => exact .refl d _
    | ok entries =>
      cases houtput : r.output with
      | none => exact .refl d _
      | some path =>
        cases hwrite : d.write path.text (Text.closeLines (outputLines r entries)) with
        | error fault =>
          simp only [hwrite]
          exact .refl d _
        | ok written =>
          simp only [hwrite]
          exact Directory.changedAt_write hwrite
  · have hunread : (perform printed r d).LeavesAlone d ∧ _ :=
      perform_of_unread fun text htext => hread ⟨text, htext⟩
    rw [hunread.1.directory_eq]
    exact .refl d _

end DisassemblerTool

/-! ### Both tools -/

namespace Tool

theorem run_assembler_of_call {r : AssemblerTool.Request} (h : c.assembler arguments d = .call r) :
    run c .assembler arguments e d = .finished (AssemblerTool.perform c.printed r e d) := by
  rw [run, h]
  rfl

theorem run_disassembler_of_call {r : DisassemblerTool.Request}
    (h : c.disassembler arguments d = .call r) :
    run c .disassembler arguments e d = DisassemblerTool.perform c.printed r d := by
  rw [run, h]
  rfl

/-- A tool changes nothing unless its input was converted. A request to the assembler fails and leaves
every file alone if its source is not assembled; otherwise it changes at most the files that it names
for the machine code, the listing and the symbols. A request to the disassembler fails, prints nothing
and leaves every file alone if its input or its symbols are not read or a word that it asks for cannot
be decoded; otherwise it changes at most its output file. Arguments with which a tool is not called
change nothing, and fail unless they ask for information. -/
theorem run_effects (hc : c.Documented) (arguments : List String) (e : Environment)
    (d : Directory) :
    let assembled := run c .assembler arguments e d
    let disassembled := run c .disassembler arguments e d
    (∀ r, c.assembler arguments d = .call r →
      (∀ f, (r.attempt e d).result = .error f → assembled.LeavesAlone d) ∧
      (∀ words, (r.attempt e d).result = .ok words →
        d.ChangedAt (assembled.directory d) (r.paths e))) ∧
    (∀ r, c.disassembler arguments d = .call r →
      (¬ r.Convertible d → disassembled.LeavesAlone d ∧ disassembled.output = []) ∧
      (r.Convertible d →
        d.ChangedAt (disassembled.directory d) (r.output.toList.map Path.text))) ∧
    ((∀ r, c.assembler arguments d ≠ .call r) → assembled.directory d = d ∧
      ((∀ output, c.assembler arguments d ≠ .inform output) →
        assembled.LeavesAlone d ∧ assembled.output = [])) ∧
    ((∀ r, c.disassembler arguments d ≠ .call r) → disassembled.directory d = d ∧
      ((∀ output, c.disassembler arguments d ≠ .inform output) →
        disassembled.LeavesAlone d ∧ disassembled.output = [])) := by
  intro assembled disassembled
  refine ⟨fun r hr => ?_, fun r hr => ?_, ?_, ?_⟩
  · have hrun : assembled = .finished (AssemblerTool.perform c.printed r e d) :=
      run_assembler_of_call hr
    rw [hrun]
    refine ⟨fun f hf => ?_, fun _ _ => AssemblerTool.perform_changedAt c.printed r e d⟩
    obtain ⟨hstatus, hdirectory⟩ := AssemblerTool.perform_of_error hf
    exact ⟨hstatus, hdirectory⟩
  · have hrun : disassembled = DisassemblerTool.perform c.printed r d := run_disassembler_of_call hr
    rw [hrun]
    exact ⟨DisassemblerTool.perform_of_not_convertible,
      fun _ => DisassemblerTool.perform_changedAt c.printed r d⟩
  · refine Invocation.outcome_of_not_call fun status errors hrefuse => ?_
    rw [hc.assembler_refusal arguments d status errors hrefuse]
    exact Nat.succ_ne_zero 1
  · refine Invocation.outcome_of_not_call fun status errors hrefuse => ?_
    rw [hc.disassembler_refusal arguments d status errors hrefuse]
    exact Nat.succ_ne_zero 1

end Tool

/-- A directory with a source that is not assembled. -/
def Directory.faulty : Directory :=
  .ofNodes [("a.asm", .file (Text.Utf8.encode "@\n"))]

/-- A request to assemble that source, with the listing written over it. -/
def AssemblerTool.Request.faulty : Request :=
  ⟨⟨some ⟨"", ["a.hack"]⟩, some ⟨"", ["a.asm"]⟩, none, none, none, false⟩, ⟨"", ["a.asm"]⟩⟩

theorem Tool.run_effects_faulty :
    let c := CommandLibrary.conventional
    let arguments := ["a.asm", "-o", "a.hack", "-l", "a.asm"]
    let e : Environment := ⟨none, none, none⟩
    c.assembler arguments .faulty = .call .faulty ∧
      ∃ f, (AssemblerTool.Request.faulty.attempt e .faulty).result = .error f ∧
        (Tool.assembler.run c arguments e .faulty).LeavesAlone .faulty := by
  intro c arguments e
  have hscan : Arguments.scan AssemblerTool.forms arguments =
      .ok ⟨[(.output, "a.hack"), (.listing, "a.asm")], ["a.asm"]⟩ := rfl
  have hrequest : AssemblerTool.Request.ofArguments .faulty
      ⟨[(.output, "a.hack"), (.listing, "a.asm")], ["a.asm"]⟩ = .ok .faulty := by
    decide +kernel
  have hcall : c.assembler arguments .faulty = .call .faulty := by
    simp only [c, CommandLibrary.conventional, Arguments.invocation, hscan, hrequest]
    rfl
  have hattempt : (AssemblerTool.Request.faulty.attempt e .faulty).result =
      .error (.diagnosed ⟨.malformed .missingOperand, some ⟨"a.asm", 1, 2⟩, some "@"⟩) := by
    decide +kernel
  have heffects := Tool.run_effects CommandLibrary.documented_conventional arguments e .faulty
  exact ⟨hcall, _, hattempt, (heffects.1 .faulty hcall).1 _ hattempt⟩

end HackToolchain
