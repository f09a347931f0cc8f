import HackToolchain.Proofs.CommandLine.Effects
import HackToolchain.Proofs.Directory.NormalPath
import HackToolchain.Proofs.Disassembly.NormalForm
import HackToolchain.Proofs.Source.Files

/-!
# From files to files and back

If addresses are held below the limit, every word that the assembler writes to a file is one that the
disassembler can decode. So a file of machine code can be disassembled to a second file and assembled
to a third one, which has the same bytes: the lines of the three files are cut apart as they were
written, and the canonical texts in the second file depend on no symbol. Nothing is asked of the
environments and of the first addresses of variables, and a file without any words is no exception.

The arguments of the three runs are those that a command-line library takes for requests of this kind.
If the library is as documented, two file names are always such arguments.
-/

namespace HackToolchain

open Denotation Disassembly Text

variable {settings : Settings} {statements : List Statement} {words : List Word} {ls : List String}
variable {w : Word} {s : Statement} {d : Directory} {path source target : Path} {e : Environment}
variable {arguments : List String} {c : CommandLibrary} {printed : String → String}

/-! ### Words below the limit -/

/-- The words of a program can be decoded, if addresses are held below the usual limit. -/
theorem isEmitted_of_result (hlimit : settings.limit = Settings.default.limit)
    (h : (generate settings statements).result = .ok words) : ∀ w ∈ words, w.IsEmitted := by
  intro w hw
  have hmem : Except.ok w ∈ statements.filterMap (word? settings statements) := by
    rw [(generate_of_result h).2]
    exact List.mem_map_of_mem hw
  obtain ⟨s, -, hs⟩ := List.mem_filterMap.1 hmem
  rcases word?_eq_some_iff.1 hs with ⟨operand, -, haddress⟩ | ⟨fields, -, hencode⟩
  · rw [hlimit] at haddress
    exact .inl ⟨_, (Word.ofAddress_eq_ok_iff.1 haddress).1, haddress⟩
  · exact .inr ⟨fields, hencode⟩

/-- Of the settings, only the limit matters to a statement whose word depends on no symbol. -/
theorem Statement.IsFixed.of_limit_eq (hlimit : settings.limit = Settings.default.limit)
    (h : s.IsFixed .default w) : s.IsFixed settings w where
  isInstruction := h.isInstruction
  encode_eq b := by
    rw [← h.encode_eq b]
    simp only [Bindings.encode, hlimit]

/-! ### Files of lines -/

/-- Lines without blanks are read from the file to which they are written. -/
theorem fileLines_closeLines (h : ∀ l ∈ ls, IsSolid l.toList) :
    fileLines (closeLines ls).toList = ls := by
  have hbreaks : ∀ c ∈ (closeLines ls).toList, breaksTextOnly c = false := by
    intro c hc
    rw [closeLines, String.toList_ofList, List.mem_flatMap] at hc
    obtain ⟨l, hl, hc⟩ := hc
    rw [breaksTextOnly_eq_false_iff]
    rcases List.mem_append.1 hc with hline | hnewline
    · have hbreak := isLineBreak_of_isSolid (h l hl) c hline
      rw [hbreak, isFileBreak_of_isLineBreak_eq_false hbreak]
    · rw [List.mem_singleton.1 hnewline]
      rfl
  -- No other line break can tell the two ways to cut lines apart.
  rw [← lines_eq_fileLines_iff.2 hbreaks, lines_closeLines h]

namespace Attempt

/-- The words of an attempt are those of a run. -/
theorem exists_generate_of_result (h : (ofFile settings d path).result = .ok words) :
    ∃ statements, (generate settings statements).result = .ok words := by
  rw [ofFile] at h
  split at h
  · simp [result] at h
  · rw [ofSource] at h
    split at h
    · simp [result] at h
    · split at h
      · simp [result] at h
      · exact ⟨_, mapError_eq_ok_iff.1 h⟩

/-- A file of canonical texts is assembled to the words from which they were made. -/
theorem result_of_canonical (hlimit : settings.limit = Settings.default.limit)
    (h : List.Forall₂ Canonical words ls)
    (hread : d.read path.text = .ok (Utf8.encode (closeLines ls))) :
    (ofFile settings d path).result = .ok words := by
  obtain ⟨statements, hstatements, hfixed⟩ := exists_ofLinesFrom h path.text 1
  have hrun : (generate settings statements).result = .ok words :=
    generate_of_isFixed (hfixed.imp fun _ _ hs => hs.of_limit_eq hlimit)
  have hlines : Statement.ofLines path.text ls = .ok statements := hstatements
  rw [ofFile, hread]
  simp only [SourceFile.ofBytes_encode, fileLines_closeLines (forall_isSolid_of_canonical h),
    ofSource, hlines]
  exact mapError_eq_ok_iff.2 hrun

/-- The program that is kept of an attempt has its words. -/
theorem words_record {a : Assembler} {attempt : Attempt} (h : attempt.result = .ok words) :
    (a.record attempt).program.words = words := by
  cases attempt with
  | unopened fault => simp [result] at h
  | unread failure => simp [result] at h
  | ran statements run =>
    obtain ⟨hfault, hwords⟩ := result_ran_eq_ok_iff.1 h
    rw [Assembler.record, Run.kept, hfault]
    exact hwords

end Attempt

/-! ### Paths -/

/-- A path at which a file can be written. -/
def Directory.IsWritable (d : Directory) (path : Path) : Prop :=
  ∃ place, d.target path.text = .ok place

theorem Directory.IsWritable.exists_write (h : d.IsWritable path) (text : String) :
    ∃ written, d.write path.text text = .ok written := by
  obtain ⟨place, hplace⟩ := h
  exact ⟨_, bind_eq_ok_iff.2 ⟨place, hplace, rfl⟩⟩

/-! ### The assembler -/

namespace AssemblerTool

variable {r : Request}

/-- The library takes the arguments for a request to assemble a source to machine code, and nothing
else, with addresses held below the limit. -/
def Converts (c : CommandLibrary) (arguments : List String) (e : Environment) (d : Directory)
    (source target : Path) : Prop :=
  ∃ r, c.assembler arguments d = .call r ∧ r.input = source ∧ r.output = some target ∧
    r.listing = none ∧ r.symbols = none ∧ (r.settings e).rangeCheck = true

/-- The limit of addresses is the usual one unless it is switched off. -/
theorem Request.limit_settings (h : (r.settings e).rangeCheck = true) :
    (r.settings e).limit = Settings.default.limit := by
  rw [Settings.limit, if_pos h]
  rfl

/-- A request for machine code only writes the words. -/
theorem writeAll_outputs {code : Path} (hlisting : r.listing = none) (hsymbols : r.symbols = none)
    (hresult : (r.attempt e d).result = .ok words) :
    writeAll (r.program e d) d (outputs r code) =
      match d.write code.text (closeLines words) with
      | .error fault => ⟨d, [], some fault⟩
      | .ok written => ⟨written, [⟨.code, code⟩], none⟩ := by
  have hwords : (r.program e d).words = words := Attempt.words_record hresult
  have hcode : (r.program e d).outputText .code = closeLines words := by
    rw [← hwords]
    rfl
  have houtputs : outputs r code = [⟨.code, code⟩] := by simp [outputs, hlisting, hsymbols]
  rw [houtputs, writeAll, hcode]
  cases d.write code.text (closeLines words) <;> rfl

/-- A request for machine code only succeeds if its source is assembled and the words can be
written. -/
theorem perform_of_write {code : Path} {written : Directory} (hlisting : r.listing = none)
    (hsymbols : r.symbols = none) (hpath : r.outputPath e = .ok code)
    (hresult : (r.attempt e d).result = .ok words)
    (hwrite : d.write code.text (closeLines words) = .ok written) :
    (perform printed r e d).status = 0 ∧ (perform printed r e d).directory = written := by
  rcases perform_cases printed r e d with ⟨-, -, ⟨f, hf⟩ | ⟨f, hf⟩⟩ |
    ⟨code', words', hpath', hresult', hdirectory, hstatus⟩
  · simp [hpath] at hf
  · simp [hresult] at hf
  · obtain rfl := Except.ok.inj (hpath.symm.trans hpath')
    rw [hstatus, hdirectory, writeAll_outputs hlisting hsymbols hresult, hwrite]
    exact ⟨rfl, rfl⟩

/-- A request for machine code only that succeeds has assembled its source and written the words. -/
theorem exists_write_of_status (hlisting : r.listing = none) (hsymbols : r.symbols = none)
    (hstatus : (perform printed r e d).status = 0) :
    ∃ code words, r.outputPath e = .ok code ∧ (r.attempt e d).result = .ok words ∧
      d.write code.text (closeLines words) = .ok (perform printed r e d).directory := by
  rcases perform_cases printed r e d with ⟨hne, -⟩ | ⟨code, words, hpath, hresult, hdirectory, hiff⟩
  · exact absurd hstatus hne
  · refine ⟨code, words, hpath, hresult, ?_⟩
    have hfault := hiff.1 hstatus
    rw [writeAll_outputs hlisting hsymbols hresult] at hfault hdirectory
    rw [hdirectory]
    cases hwrite : d.write code.text (closeLines words) with
    | error fault => simp [hwrite] at hfault
    | ok written => rfl

/-- The path of the machine code is normal. -/
theorem isNormal_outputPath {code : Path} (hc : c.Documented)
    (hcall : c.assembler arguments d = .call r) (hpath : r.outputPath e = .ok code) : code.IsNormal := by
  have hnormal : ∀ path, path = r.input ∨ r.output = some path → path.IsNormal := by
    intro path hpath
    obtain ⟨text, rfl⟩ := hc.assembler_path arguments d r hcall path hpath
    exact Path.isNormal_ofText text
  rw [Request.outputPath] at hpath
  cases hgiven : r.output with
  | some path =>
    rw [hgiven] at hpath
    obtain rfl := Except.ok.inj hpath
    exact hnormal path (.inr hgiven)
  | none =>
    rw [hgiven] at hpath
    exact (hnormal r.input (.inl rfl)).withSuffix (Settings.outputSuffix_ofEnvironment e)
      (mapError_eq_ok_iff.1 hpath)

/-- The words of a request can be written as canonical texts. -/
theorem exists_canonical (hcheck : (r.settings e).rangeCheck = true)
    (hresult : (r.attempt e d).result = .ok words) : ∃ ls, List.Forall₂ Canonical words ls := by
  obtain ⟨statements, hrun⟩ := Attempt.exists_generate_of_result hresult
  exact exists_forall₂_canonical_iff.2 (isEmitted_of_result (Request.limit_settings hcheck) hrun)

/-- Two file names are arguments for machine code only. -/
theorem converts_fileArguments (hc : c.Documented) {bytes : Text.Utf8.Bytes}
    (hread : d.read source.text = .ok bytes) (hsource : source.IsNormal)
    (hwritable : d.IsWritable target) (htarget : target.IsNormal)
    (hcheck : (Settings.ofEnvironment e).rangeCheck = true) :
    Converts c (CommandLibrary.fileArguments source.text target.text) e d source target := by
  obtain ⟨place, hplace⟩ := hwritable
  have hcall := hc.assembler_files d source.text target.text bytes place hread hplace
  rw [Path.ofText_text hsource, Path.ofText_text htarget] at hcall
  exact ⟨_, hcall, rfl, rfl, rfl, rfl, hcheck⟩

/-- A file of canonical texts is assembled to the file of their words. -/
theorem run_of_canonical (h : List.Forall₂ Canonical words ls)
    (hread : d.read source.text = .ok (Utf8.encode (closeLines ls)))
    (hconverts : Converts c arguments e d source target) (hwritable : d.IsWritable target) :
    (Tool.assembler.run c arguments e d).status = 0 ∧
      ((Tool.assembler.run c arguments e d).directory d).read target.text =
        .ok (Utf8.encode (closeLines words)) := by
  obtain ⟨r, hcall, rfl, houtput, hlisting, hsymbols, hcheck⟩ := hconverts
  have hpath : r.outputPath e = .ok target := by rw [Request.outputPath, houtput, Option.elim_some]
  have hresult : (r.attempt e d).result = .ok words :=
    Attempt.result_of_canonical (Request.limit_settings hcheck) h hread
  obtain ⟨written, hwrite⟩ := hwritable.exists_write (closeLines words)
  rw [Tool.run_assembler_of_call hcall]
  obtain ⟨hstatus, hdirectory⟩ := perform_of_write hlisting hsymbols hpath hresult hwrite
  refine ⟨hstatus, ?_⟩
  rw [← Directory.read_write hwrite]
  exact congrArg (Directory.read · target.text) hdirectory

end AssemblerTool

/-! ### The disassembler -/

namespace DisassemblerTool

variable {written : Directory}

/-- The library takes the arguments for a request to disassemble all words of a source to a file,
without their addresses and without a symbol file. -/
def Converts (c : CommandLibrary) (arguments : List String) (d : Directory) (source target : Path) :
    Prop :=
  ∃ r, c.disassembler arguments d = .call r ∧ r.input = source ∧ r.output = some target ∧
    r.addresses = false ∧ r.symbols = none ∧ r.count = none

/-- The output of such a request is normal. -/
theorem Converts.isNormal (hc : c.Documented) (h : Converts c arguments d source target) :
    target.IsNormal := by
  obtain ⟨r, hcall, -, houtput, -⟩ := h
  obtain ⟨text, rfl⟩ := hc.disassembler_path arguments d r hcall target (.inr houtput)
  exact Path.isNormal_ofText text

/-- Two file names are arguments of this kind. -/
theorem converts_fileArguments (hc : c.Documented) {bytes : Text.Utf8.Bytes}
    (hread : d.read source.text = .ok bytes) (hsource : source.IsNormal)
    (hwritable : d.IsWritable target) (htarget : target.IsNormal) :
    Converts c (CommandLibrary.fileArguments source.text target.text) d source target := by
  obtain ⟨place, hplace⟩ := hwritable
  have hcall := hc.disassembler_files d source.text target.text bytes place hread hplace
  rw [Path.ofText_text hsource, Path.ofText_text htarget] at hcall
  exact ⟨_, hcall, rfl, rfl, rfl, rfl, rfl⟩

/-- A file of words is disassembled to the file of their canonical texts. -/
theorem run_of_canonical (h : List.Forall₂ Canonical words ls)
    (hread : d.read source.text = .ok (Utf8.encode (closeLines words)))
    (hconverts : Converts c arguments d source target) (hwritable : d.IsWritable target) :
    (Tool.disassembler.run c arguments e d).status = 0 ∧
      d.write target.text (closeLines ls) =
        .ok ((Tool.disassembler.run c arguments e d).directory d) := by
  obtain ⟨r, hcall, rfl, houtput, haddresses, hsymbols, hcount⟩ := hconverts
  have hsolid : ∀ w ∈ words, IsSolid w.toList := by
    intro w hw
    obtain ⟨t, hcanonical⟩ := exists_canonical_iff.2 (exists_forall₂_canonical_iff.1 ⟨ls, h⟩ w hw)
    exact isSolid_of_isWord hcanonical.isWord
  have htext : readText d r.input = .ok (closeLines words) :=
    readText_eq_ok_iff.2 ⟨_, hread, Utf8.decodeAll_encode _⟩
  -- No word is blank, and none has blanks around it.
  have hselected : (selected none words).map trim = words := writtenWords_of_canonical h
  obtain ⟨entries, hentries, hlines⟩ := (decodeFrom_eq_ok_iff 0).2 (hselected.symm ▸ h)
  have hdisassemble : disassemble r d words = .ok entries := by
    refine disassemble_eq_ok_iff.2 ⟨[], ?_, by rw [hcount, hentries]⟩
    rw [readSymbols, hsymbols]
  have houtputLines : outputLines r entries = ls := by
    simp only [outputLines, haddresses]
    exact hlines
  obtain ⟨written, hwrite⟩ := hwritable.exists_write (closeLines ls)
  rw [Tool.run_disassembler_of_call hcall, perform_of_readText htext, lines_closeLines hsolid,
    performOn, hdisassemble]
  simp only [houtput, houtputLines, hwrite]
  exact ⟨rfl, rfl⟩

end DisassemblerTool

/-! ### Both tools -/

/-- Machine code survives disassembly and reassembly by the tools. If the assembler writes machine code
and nothing else, with addresses held below the limit, then the file holds a line for every word that
was assembled. Whatever arguments have the disassembler convert this file, it succeeds; whatever
arguments have the assembler convert the disassembly, with addresses held below the limit, it succeeds
as well and writes the bytes of the first file. In both steps, the names of the two files are such
arguments. -/
theorem Tool.roundTrip {r : AssemblerTool.Request} (hc : c.Documented)
    (hcall : c.assembler arguments d = .call r) (hlisting : r.listing = none)
    (hsymbols : r.symbols = none) (hcheck : (r.settings e).rangeCheck = true)
    (hstatus : (Tool.assembler.run c arguments e d).status = 0) :
    let first := (Tool.assembler.run c arguments e d).directory d
    ∃ code words, r.outputPath e = .ok code ∧ (r.attempt e d).result = .ok words ∧
      first.read code.text = .ok (Utf8.encode (closeLines words)) ∧
      ∀ source, first.IsWritable source →
        (source.IsNormal → DisassemblerTool.Converts c
          (CommandLibrary.fileArguments code.text source.text) first code source) ∧
        ∀ arguments' e', DisassemblerTool.Converts c arguments' first code source →
          let second := (Tool.disassembler.run c arguments' e' first).directory first
          (Tool.disassembler.run c arguments' e' first).status = 0 ∧
          ∀ target, second.IsWritable target →
            (target.IsNormal → ∀ e'', (Settings.ofEnvironment e'').rangeCheck = true →
              AssemblerTool.Converts c (CommandLibrary.fileArguments source.text target.text) e''
                second source target) ∧
            ∀ arguments'' e'', AssemblerTool.Converts c arguments'' e'' second source target →
              let third := (Tool.assembler.run c arguments'' e'' second).directory second
              (Tool.assembler.run c arguments'' e'' second).status = 0 ∧
              third.read target.text = .ok (Utf8.encode (closeLines words)) := by
  intro first
  have hrun : Tool.assembler.run c arguments e d =
      .finished (AssemblerTool.perform c.printed r e d) := Tool.run_assembler_of_call hcall
  rw [hrun] at hstatus
  obtain ⟨code, words, hpath, hresult, hwrite⟩ :=
    AssemblerTool.exists_write_of_status hlisting hsymbols hstatus
  have hread : first.read code.text = .ok (Utf8.encode (closeLines words)) := by
    refine Directory.read_write (d := d) (hwrite.trans ?_)
    exact congrArg (fun o => Except.ok (Outcome.directory d o)) hrun.symm
  -- The canonical texts of the words are what the second file will hold.
  obtain ⟨ls, hcanonical⟩ := AssemblerTool.exists_canonical hcheck hresult
  have hcode := AssemblerTool.isNormal_outputPath hc hcall hpath
  refine ⟨code, words, hpath, hresult, hread, fun source hsource => ⟨fun hnormal => ?_, ?_⟩⟩
  · exact DisassemblerTool.converts_fileArguments hc hread hcode hsource hnormal
  intro arguments' e' hconverts second
  obtain ⟨hstatus', hwrite'⟩ :=
    DisassemblerTool.run_of_canonical (e := e') hcanonical hread hconverts hsource
  have hread' := Directory.read_write hwrite'
  refine ⟨hstatus', fun target htarget => ⟨fun hnormal e'' hcheck'' => ?_, ?_⟩⟩
  · exact AssemblerTool.converts_fileArguments hc hread' (hconverts.isNormal hc) htarget hnormal
      hcheck''
  intro arguments'' e'' hconverts'
  exact AssemblerTool.run_of_canonical hcanonical hread' hconverts' htarget

/-- A directory with a source that declares a label and uses a variable. -/
def Directory.countdown : Directory :=
  .ofNodes [("a.asm", .file (Utf8.encode "(LOOP)\n  @i // counter\n  MD=M-1\n  @LOOP\n  D;JGT\n"))]

theorem Tool.roundTrip_countdown :
    let c := CommandLibrary.conventional
    let e : Environment := ⟨none, none, none⟩
    let first := (Tool.assembler.run c ["a.asm"] e .countdown).directory .countdown
    let names := CommandLibrary.fileArguments "a.hack" "b.asm"
    let second := (Tool.disassembler.run c names e first).directory first
    let names' := CommandLibrary.fileArguments "b.asm" "c.hack"
    let third := (Tool.assembler.run c names' e second).directory second
    (Tool.assembler.run c ["a.asm"] e .countdown).status = 0 ∧
      (Tool.disassembler.run c names e first).status = 0 ∧
      (Tool.assembler.run c names' e second).status = 0 ∧
      ∃ bytes, first.read "a.hack" = .ok bytes ∧ third.read "c.hack" = .ok bytes := by
  intro c e first names second names' third
  let r : AssemblerTool.Request := ⟨{}, ⟨"", ["a.asm"]⟩⟩
  have hscan : Arguments.scan AssemblerTool.forms ["a.asm"] = .ok ⟨[], ["a.asm"]⟩ := rfl
  have hrequest : AssemblerTool.Request.ofArguments .countdown ⟨[], ["a.asm"]⟩ =
      .ok ⟨{}, ⟨"", ["a.asm"]⟩⟩ := by
    decide +kernel
  have hcall : c.assembler ["a.asm"] .countdown = .call r := by
    simp only [c, CommandLibrary.conventional, Arguments.invocation, hscan, hrequest]
    rfl
  have hstatus : (Tool.assembler.run .conventional ["a.asm"] ⟨none, none, none⟩
      .countdown).status = 0 := by
    decide +kernel
  obtain ⟨code, words, hpath, -, hread, hsecond⟩ := Tool.roundTrip (e := e)
    CommandLibrary.documented_conventional hcall rfl rfl rfl hstatus
  have hcode : r.outputPath e = .ok ⟨"", ["a.hack"]⟩ := by decide +kernel
  obtain rfl := Except.ok.inj (hpath.symm.trans hcode)
  have hwritable : first.target "b.asm" = .ok ["b.asm"] := by decide +kernel
  obtain ⟨hconverts, hsecond⟩ := hsecond ⟨"", ["b.asm"]⟩ ⟨_, hwritable⟩
  obtain ⟨hstatus', hthird⟩ := hsecond names e (hconverts (Path.isNormal_ofText "b.asm"))
  have hwritable' : second.target "c.hack" = .ok ["c.hack"] := by decide +kernel
  obtain ⟨hconverts', hthird⟩ := hthird ⟨"", ["c.hack"]⟩ ⟨_, hwritable'⟩
  obtain ⟨hstatus'', hread'⟩ :=
    hthird names' e (hconverts' (Path.isNormal_ofText "c.hack") e rfl)
  exact ⟨hstatus, hstatus', hstatus'', _, hread, hread'⟩

end HackToolchain
