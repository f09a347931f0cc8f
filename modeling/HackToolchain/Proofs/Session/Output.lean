import HackToolchain.Proofs.Directory.Writing
import HackToolchain.Proofs.Program.OutputText
import HackToolchain.Proofs.Session.Calls
import HackToolchain.Proofs.Text.Decoding

/-!
# The output of a session

Nothing is written unless the last call that read lines has succeeded. What is written then is what
these lines yield, and nothing of what failed before or after: the machine code holds the words that
were answered, and the listing and the symbol file show the statements of these lines with those very
words, and their labels and variables.

The default path of the machine code is derived from the file of another call, if the last file was
not opened or if other lines were assembled after it. The words are then written beside a source that
they do not come from.
-/

namespace HackToolchain

open Text

variable {d : Directory} {a : Assembler} {s : Session}
variable {request : Request} {kind : OutputKind} {path : String} {chosen : Path} {failure : Failure}
variable {calls : List Call} {c f : Call}

/-! ### Writing a program -/

namespace Program

/-- Writing fails at the path, before anything is written, or it succeeds, or it ends at an obstacle. -/
theorem write_cases (p : Program) (d : Directory) (kind : OutputKind) (path : String) :
    (∃ fault, d.target path = .error fault ∧
        p.write d kind path = (d, .error (.directory fault))) ∨
      (∃ written, p.obstacle? kind = none ∧ d.write path (p.outputText kind) = .ok written ∧
        p.write d kind path = (written, .ok ())) ∨
      ∃ obstacle written, p.obstacle? kind = some obstacle ∧
        d.write path (p.textBeforeObstacle kind) = .ok written ∧
          p.write d kind path = (written, .error (.unwritable obstacle)) := by
  simp only [write, Directory.write]
  cases htarget : d.target path with
  | error fault =>
    refine .inl ⟨fault, rfl, ?_⟩
    cases p.obstacle? kind <;> rfl
  | ok place =>
    cases hobstacle : p.obstacle? kind with
    | none => exact .inr (.inl ⟨_, rfl, rfl, rfl⟩)
    | some obstacle => exact .inr (.inr ⟨obstacle, _, rfl, rfl, rfl⟩)

end Program

/-! ### The guard -/

namespace Assembler

theorem requireReady_of_ready (h : a.ready = true) : a.requireReady = .ok () := by
  simp [requireReady, h]

theorem requireReady_of_not_ready (h : a.ready = false) :
    a.requireReady = .error .nothingAssembled := by
  simp [requireReady, h]

theorem write_of_ready (h : a.ready = true) : a.write d kind path = a.program.write d kind path := by
  rw [write, requireReady_of_ready h]

theorem write_of_not_ready (h : a.ready = false) :
    a.write d kind path = (d, .error .nothingAssembled) := by
  rw [write, requireReady_of_not_ready h]

theorem writeCode_of_not_ready {given : Option Path} (h : a.ready = false) :
    a.writeCode d given = (d, .error .nothingAssembled) := by
  rw [writeCode, requireReady_of_not_ready h]

theorem outputBeside_of_ok {source beside : Path}
    (h : source.withSuffix a.settings.outputSuffix = .ok beside) :
    a.outputBeside source = .ok beside := by
  rw [outputBeside, h]
  rfl

theorem outputBeside_of_error {source : Path} {fault : Path.Fault}
    (h : source.withSuffix a.settings.outputSuffix = .error fault) :
    a.outputBeside source = .error (.path fault) := by
  rw [outputBeside, h]
  rfl

/-- That no path can be derived is another failure than that nothing has been assembled. -/
theorem ne_nothingAssembled_of_outputPath {source : Option Path}
    (h : a.outputPath source = .error failure) : failure ≠ .nothingAssembled := by
  rintro rfl
  rw [outputPath] at h
  split at h
  · next path _ =>
    cases hsuffix : path.withSuffix a.settings.outputSuffix with
    | ok beside => simp [outputBeside_of_ok hsuffix] at h
    | error fault => simp [outputBeside_of_error hsuffix] at h
  · simp at h

end Assembler

namespace Session

/-- The path that a request writes to; none for a request that does not write, or if no default path
can be derived. -/
def target? (s : Session) : Request → Option String
  | .write _ path => some path
  | .writeCode (some path) => some path.text
  | .writeCode none => (s.assembler.outputPath none).toOption.map Path.text
  | _ => none

/-- The session behind a file that is written, and the answer to it. -/
def put (s : Session) (kind : OutputKind) (path : String) : Session × Answer :=
  let (directory, result) := s.assembler.program.write s.directory kind path
  ({ s with directory := directory }, .ofResult (fun _ => .written path) result)

theorem perform_of_not_ready (h : request.output? = some kind) (hready : s.assembler.ready = false) :
    s.perform request = (s, .refused .nothingAssembled) := by
  cases request with
  | write kind path => simp only [perform, Assembler.write_of_not_ready hready, Answer.ofResult]
  | writeCode given => simp only [perform, Assembler.writeCode_of_not_ready hready, Answer.ofResult]
  | _ => simp [Request.output?] at h

/-- The machine code is written to its path like any other output. -/
theorem perform_writeCode (hready : s.assembler.ready = true) {given : Option Path}
    (hpath : given.elim (s.assembler.outputPath none) .ok = .ok chosen) :
    s.perform (.writeCode given) = s.put .code chosen.text := by
  simp only [perform, Assembler.writeCode, Assembler.requireReady_of_ready hready, hpath, put]
  cases s.assembler.program.write s.directory .code chosen.text with
  | mk directory result => cases result <;> rfl

/-- A session that is ready writes to the path that is asked for. -/
theorem perform_of_target (h : request.output? = some kind) (hready : s.assembler.ready = true)
    (hpath : s.target? request = some path) : s.perform request = s.put kind path := by
  cases request with
  | write kind path =>
    obtain rfl := Option.some.inj h
    obtain rfl := Option.some.inj hpath
    rw [perform, Assembler.write_of_ready hready, put]
  | writeCode given =>
    obtain rfl := Option.some.inj h
    cases given with
    | some chosen =>
      obtain rfl := Option.some.inj hpath
      exact perform_writeCode hready rfl
    | none =>
      -- The guard comes first, so the default path is looked up by a session that is ready.
      rw [target?] at hpath
      cases houtput : s.assembler.outputPath none with
      | error failure => simp [houtput, Except.toOption] at hpath
      | ok chosen =>
        rw [houtput] at hpath
        obtain rfl := Option.some.inj hpath
        exact perform_writeCode hready houtput
  | _ => simp [Request.output?] at h

/-- A session that is ready but knows no path to write to is past the guard all the same. -/
theorem perform_of_not_target (h : request.output? = some kind) (hready : s.assembler.ready = true)
    (hpath : s.target? request = none) :
    ∃ failure, failure ≠ .nothingAssembled ∧ s.perform request = (s, .refused failure) := by
  cases request with
  | write kind path => simp [target?] at hpath
  | writeCode given =>
    cases given with
    | some chosen => simp [target?] at hpath
    | none =>
      rw [target?] at hpath
      cases houtput : s.assembler.outputPath none with
      | ok chosen => simp [houtput, Except.toOption] at hpath
      | error failure =>
        refine ⟨failure, Assembler.ne_nothingAssembled_of_outputPath houtput, ?_⟩
        simp only [perform, Assembler.writeCode, Assembler.requireReady_of_ready hready,
          Option.elim_none, houtput]
        rfl
  | _ => simp [Request.output?] at h

/-! ### What a request to write comes to -/

/-- What a request to write a file may come to. -/
inductive Outcome (s : Session) (request : Request) (kind : OutputKind) :
    Session × Answer → Prop where
  | guarded (hready : s.assembler.ready = false) :
    Outcome s request kind (s, .refused .nothingAssembled)
  /-- No default path can be derived. -/
  | pathless {failure : Failure} (hready : s.assembler.ready = true)
      (hpath : s.target? request = none) (hfailure : failure ≠ .nothingAssembled) :
    Outcome s request kind (s, .refused failure)
  | unopened {path : String} {fault : Directory.Fault} (hready : s.assembler.ready = true)
      (hpath : s.target? request = some path) (htarget : s.directory.target path = .error fault) :
    Outcome s request kind (s, .refused (.directory fault))
  /-- A number of the listing or of the symbol file cannot be written. -/
  | unfinished {path : String} {obstacle : Obstacle} {written : Directory}
      (hready : s.assembler.ready = true) (hpath : s.target? request = some path)
      (hobstacle : s.assembler.program.obstacle? kind = some obstacle)
      (hwrite : s.directory.write path (s.assembler.program.textBeforeObstacle kind) =
        .ok written) :
    Outcome s request kind ({ s with directory := written }, .refused (.unwritable obstacle))
  | written {path : String} {written : Directory} (hready : s.assembler.ready = true)
      (hpath : s.target? request = some path)
      (hobstacle : s.assembler.program.obstacle? kind = none)
      (hwrite : s.directory.write path (s.assembler.program.outputText kind) = .ok written) :
    Outcome s request kind ({ s with directory := written }, .written path)

theorem perform_outcome (h : request.output? = some kind) :
    s.Outcome request kind (s.perform request) := by
  cases hready : s.assembler.ready with
  | false =>
    rw [perform_of_not_ready h hready]
    exact .guarded hready
  | true =>
    cases hpath : s.target? request with
    | none =>
      obtain ⟨failure, hfailure, hperform⟩ := perform_of_not_target h hready hpath
      rw [hperform]
      exact .pathless hready hpath hfailure
    | some path =>
      rw [perform_of_target h hready hpath, put]
      rcases s.assembler.program.write_cases s.directory kind path with
        ⟨fault, htarget, hwrite⟩ | ⟨written, hnone, hwritten, hwrite⟩ |
          ⟨obstacle, written, hsome, hwritten, hwrite⟩
      · rw [hwrite]
        exact .unopened hready hpath htarget
      · rw [hwrite]
        exact .written hready hpath hnone hwritten
      · rw [hwrite]
        exact .unfinished hready hpath hsome hwritten

/-- A request to write is past the guard exactly when the session is ready. -/
theorem not_nothingAssembled_iff (h : request.output? = some kind) :
    (s.perform request).2 ≠ .refused .nothingAssembled ↔ s.assembler.ready = true := by
  have houtcome : s.Outcome request kind (s.perform request) := perform_outcome h
  generalize s.perform request = result at houtcome
  cases houtcome with
  | guarded hready => simp [hready]
  | pathless hready hpath hfailure => simp [hready, hfailure]
  | unopened hready hpath htarget => simp [hready]
  | unfinished hready hpath hobstacle hwrite => simp [hready]
  | written hready hpath hobstacle hwrite => simp [hready]

/-- A file is written exactly when the session is ready, a file can be opened at the path, and no
obstacle is met. -/
theorem answer_eq_written_iff (h : request.output? = some kind) :
    (s.perform request).2 = .written path ↔
      s.assembler.ready = true ∧ s.target? request = some path ∧
        (∃ place, s.directory.target path = .ok place) ∧
          s.assembler.program.obstacle? kind = none := by
  have houtcome : s.Outcome request kind (s.perform request) := perform_outcome h
  generalize s.perform request = result at houtcome
  cases houtcome with
  | guarded hready => simp [hready]
  | pathless hready hpath hfailure => simp [hpath]
  | unopened hready hpath htarget =>
    -- Whether a path can be opened does not depend on what is written to it.
    refine ⟨by simp, ?_⟩
    rintro ⟨-, hpath', ⟨place, hplace⟩, -⟩
    obtain rfl := Option.some.inj (hpath.symm.trans hpath')
    simp [hplace] at htarget
  | unfinished hready hpath hobstacle hwrite => simp [hobstacle]
  | written hready hpath hobstacle hwrite =>
    simp only [Answer.written.injEq, hready, hpath, hobstacle, Option.some.injEq, true_and, and_true]
    constructor
    · rintro rfl
      obtain ⟨place, htarget, -⟩ := Directory.exists_target_of_write hwrite
      exact ⟨rfl, place, htarget⟩
    · rintro ⟨hpath', -⟩
      exact hpath'

/-- What is written can be read. -/
theorem read_of_written (h : request.output? = some kind)
    (hwritten : (s.perform request).2 = .written path) :
    (s.perform request).1.directory.read path =
      .ok (Utf8.encode (s.assembler.program.outputText kind)) := by
  have houtcome : s.Outcome request kind (s.perform request) := perform_outcome h
  generalize s.perform request = result at houtcome hwritten
  cases houtcome with
  | written hready hpath hobstacle hwrite =>
    obtain rfl := Answer.written.inj hwritten
    exact Directory.read_write hwrite
  | _ => simp at hwritten

/-- A request that is refused changes nothing, unless the file was left unfinished at an obstacle. -/
theorem behind_refused (h : request.output? = some kind)
    (hrefused : (s.perform request).2 = .refused failure) :
    (s.perform request).1 = s ∨ ∃ path obstacle, s.assembler.ready = true ∧
      s.target? request = some path ∧ s.assembler.program.obstacle? kind = some obstacle ∧
        failure = .unwritable obstacle ∧ (s.perform request).1.directory.read path =
          .ok (Utf8.encode (s.assembler.program.textBeforeObstacle kind)) := by
  have houtcome : s.Outcome request kind (s.perform request) := perform_outcome h
  generalize s.perform request = result at houtcome hrefused
  cases houtcome with
  | unfinished hready hpath hobstacle hwrite =>
    exact .inr ⟨_, _, hready, hpath, hobstacle, (Answer.refused.inj hrefused).symm,
      Directory.read_write hwrite⟩
  | written hready hpath hobstacle hwrite => simp at hrefused
  | _ => exact .inl rfl

/-! ### Which lines are written -/

/-- The text of an output file that belongs to the last lines of some calls. -/
def IsOutput (calls : List Call) (kind : OutputKind) (text : String) : Prop :=
  ∃ c words r statements, lastReading calls = some c ∧ c.answer = .words words ∧
    c.reading = some r ∧ r.Holds statements ∧
      (generate r.settings statements).result = .ok words ∧
        Prints r.settings statements words kind text

/-- A session that is ready has the output of its last lines at hand. -/
theorem Reflects.isOutput (h : s.Reflects calls) (hready : s.assembler.ready = true)
    (kind : OutputKind) : IsOutput calls kind (s.assembler.program.outputText kind) := by
  obtain ⟨c, words, hc, hanswer⟩ := h.ready_iff.1 hready
  obtain ⟨r, hr, statements, hholds, hresult, hprogram⟩ := h.yields c words hc hanswer
  refine ⟨c, words, r, statements, hc, hanswer, hr, hholds, hresult, ?_⟩
  rw [← hprogram]
  exact prints_outputText hresult kind

/-- Whatever has happened in a session, a request to write is past the guard exactly when the last
call that read lines has succeeded. Its words, its symbols and its number of instructions are those at
hand. A file is written unless the path or an obstacle forbids it, and then it holds the words of this
call, or its listing or symbols. A request that is refused changes nothing, unless an obstacle leaves
a file with a beginning of this text. -/
theorem output_of_lastReading (settings : Settings) (directory : Directory)
    (requests : List Request) (h : request.output? = some kind) :
    let s := (start settings directory).after requests
    let calls := (start settings directory).calls requests
    let program := s.assembler.program
    let behind := (s.perform request).1
    ((s.perform request).2 ≠ .refused .nothingAssembled ↔
        ∃ c words, lastReading calls = some c ∧ c.answer = .words words) ∧
      (∀ c words, lastReading calls = some c → c.answer = .words words →
        ∃ r statements, c.reading = some r ∧ r.Holds statements ∧
          (generate r.settings statements).result = .ok words ∧ program.words = words ∧
          program.symbols = Denotation.symbolTable r.settings statements ∧
          program.instructionCount = words.length) ∧
      (∀ path, (s.perform request).2 = .written path ↔
        (∃ c words, lastReading calls = some c ∧ c.answer = .words words) ∧
          s.target? request = some path ∧ (∃ place, s.directory.target path = .ok place) ∧
            program.obstacle? kind = none) ∧
      (∀ path, (s.perform request).2 = .written path →
        ∃ text, IsOutput calls kind text ∧ behind.directory.read path = .ok (Utf8.encode text)) ∧
      ∀ failure, (s.perform request).2 = .refused failure →
        behind = s ∨ ∃ path obstacle text rest, s.target? request = some path ∧
          program.obstacle? kind = some obstacle ∧ failure = .unwritable obstacle ∧
            IsOutput calls kind (text ++ rest) ∧
              behind.directory.read path = .ok (Utf8.encode text) := by
  intro s calls program behind
  have hreflects : s.Reflects calls := reflects_after settings directory requests
  refine ⟨?_, ?_, ?_, ?_, ?_⟩
  · rw [not_nothingAssembled_iff h, hreflects.ready_iff]
  · intro c words hc hanswer
    obtain ⟨r, hr, statements, hholds, hresult, hkept⟩ := hreflects.yields c words hc hanswer
    have hprogram : program = (generate r.settings statements).program := hkept.symm
    have hwords : program.words = words := by
      rw [hprogram]
      exact (Run.result_eq_ok_iff.1 hresult).2
    obtain ⟨hlisted, hcount⟩ := listed_of_result hresult
    rw [← hprogram] at hlisted hcount
    refine ⟨r, statements, hr, hholds, hresult, hwords, ?_, ?_⟩
    · rw [hprogram, (generate_of_result hresult).1]
    · rw [hcount, ← hwords, Program.words, hlisted.length_words]
  · intro path
    rw [answer_eq_written_iff h, hreflects.ready_iff]
  · intro path hwritten
    obtain ⟨hready, -⟩ := (answer_eq_written_iff h).1 hwritten
    exact ⟨_, hreflects.isOutput hready kind, read_of_written h hwritten⟩
  · intro failure hrefused
    rcases behind_refused h hrefused with
      hsame | ⟨path, obstacle, hready, hpath, hobstacle, hfailure, hread⟩
    · exact .inl hsame
    · obtain ⟨rest, hrest⟩ := program.exists_outputText_eq_append kind
      exact .inr ⟨path, obstacle, _, rest, hpath, hobstacle, hfailure,
        hrest ▸ hreflects.isOutput hready kind, hread⟩

/-- A session in which a text is assembled in the third attempt, and a file is missing after it. -/
def corrections : List Request :=
  [.assembleText "a.asm" "@1\n@2", .assembleText "a.asm" "D=M\n@", .assembleText "a.asm" "@x\nD=Q",
    .assembleText "a.asm" "@x\n(END)\nD=M", .assembleFile (.ofText "b.asm")]

/-- The files of the text that was assembled. -/
def correctedText : OutputKind → String
  | .code => "0000000000010000\n1111110000010000\n"
  | .listing =>
    "Hack Assembler Listing\n============================================================\n\n" ++
    " ROM   Word              Line  Source\n" ++
    "------------------------------------------------------------\n" ++
    "    0   0000000000010000     1  @x\n" ++
    "                             2  (END)\n" ++
    "    1   1111110000010000     3  D=M\n\n" ++
    "Symbol Table\n------------------------------\n" ++
    "END                  =     1  (label)\nx                    =    16  (variable)\n"
  | .symbols => "# Symbol table\n# Generated by hackasm\nEND 1 label\nx 16 variable\n"

/-- What is at hand after the corrections. -/
def corrected : Program :=
  ((start .default .empty).after corrections).assembler.program

/-- The label of the text stands before its variable by their names. -/
theorem listedSymbols_corrected : corrected.listedSymbols =
    [⟨"END", 1, .label, some ⟨"a.asm", 2, 1⟩⟩, ⟨"x", 16, .var, some ⟨"a.asm", 1, 1⟩⟩] := by
  have hown : corrected.symbols.own =
      [⟨"END", 1, .label, some ⟨"a.asm", 2, 1⟩⟩, ⟨"x", 16, .var, some ⟨"a.asm", 1, 1⟩⟩] := by
    decide +kernel
  rw [Program.listedSymbols, hown]
  exact List.mergeSort_of_pairwise (by decide)

theorem outputText_corrected (kind : OutputKind) :
    corrected.obstacle? kind = none ∧ corrected.outputText kind = correctedText kind := by
  cases kind with
  | code => decide +kernel
  | listing =>
    rw [Program.obstacle?, Program.symbolObstacle?, Program.outputText, Program.listingText,
      listedSymbols_corrected]
    decide +kernel
  | symbols =>
    rw [Program.obstacle?, Program.symbolObstacle?, Program.outputText, Program.symbolText,
      listedSymbols_corrected]
    decide +kernel

theorem written_corrections :
    let s := (start .default .empty).after corrections
    let calls := (start .default .empty).calls corrections
    let holds (kind : OutputKind) (path : String) : Prop :=
      Request.output? (.write kind path) = some kind ∧
        (s.perform (.write kind path)).2 = .written path ∧
        IsOutput calls kind (correctedText kind) ∧
        (s.perform (.write kind path)).1.directory.read path =
          .ok (Utf8.encode (correctedText kind))
    holds .code "a.hack" ∧ holds .listing "a.lst" ∧ holds .symbols "a.sym" := by
  intro s calls holds
  have hready : s.assembler.ready = true := by decide +kernel
  have hholds (kind : OutputKind) (path : String)
      (htarget : ∃ place, s.directory.target path = .ok place) : holds kind path := by
    have hkind : Request.output? (.write kind path) = some kind := rfl
    obtain ⟨hobstacle, houtput⟩ := outputText_corrected kind
    have hwritten : (s.perform (.write kind path)).2 = .written path :=
      (answer_eq_written_iff hkind).2 ⟨hready, rfl, htarget, hobstacle⟩
    have hread : (s.perform (.write kind path)).1.directory.read path =
        .ok (Utf8.encode (correctedText kind)) := houtput ▸ read_of_written hkind hwritten
    obtain ⟨-, -, -, hfile, -⟩ := output_of_lastReading .default .empty corrections hkind
    obtain ⟨text, houtput, htext⟩ := hfile path hwritten
    obtain rfl := Utf8.encode_injective (Except.ok.inj (hread.symm.trans htext))
    exact ⟨hkind, hwritten, houtput, hread⟩
  exact ⟨hholds _ _ ⟨["a.hack"], by decide +kernel⟩, hholds _ _ ⟨["a.lst"], by decide +kernel⟩,
    hholds _ _ ⟨["a.sym"], by decide +kernel⟩⟩

/-! ### The default path -/

/-- The default path is derived from the file that was last to be assembled. -/
theorem target?_writeCode_none_iff : s.target? (.writeCode none) = some path ↔
    ∃ source beside, s.assembler.source = some source ∧
      source.withSuffix s.assembler.settings.outputSuffix = .ok beside ∧ path = beside.text := by
  rw [target?, Assembler.outputPath]
  cases hsource : s.assembler.source with
  | none => simp [Except.toOption]
  | some source =>
    cases hbeside : source.withSuffix s.assembler.settings.outputSuffix with
    | ok beside =>
      simp [Assembler.outputBeside_of_ok hbeside, hbeside, Except.toOption, eq_comm]
    | error fault => simp [Assembler.outputBeside_of_error hbeside, hbeside, Except.toOption]

/-- The last call that read lines is the last that was given a file exactly when no call came after
that one, and its file was opened. -/
theorem lastReading_eq_lastFile_iff (hcalls : ∀ c ∈ calls, c.reading = none → c.path.isSome = true)
    (hc : lastReading calls = some c) (hf : lastFile calls = some f) :
    c = f ↔ calls.getLast? = some f ∧ f.reading.isSome = true := by
  rcases List.eq_nil_or_concat calls with rfl | ⟨front, last, rfl⟩
  · simp [lastReading] at hc
  rw [List.concat_eq_append] at hcalls hc hf ⊢
  rw [List.getLast?_concat, Option.some.injEq]
  have hreads := isSome_of_lastReading hc
  rw [lastReading_concat] at hc
  rw [lastFile_concat] at hf
  cases hreading : last.reading with
  | none =>
    -- The last call was given a file that is not opened, so the lines are those of a call before it.
    have hpath := hcalls last (by simp) hreading
    rw [if_pos hpath] at hf
    obtain rfl := Option.some.inj hf
    simp only [hreading, Option.isSome_none, Bool.false_eq_true, and_false, iff_false]
    rintro rfl
    simp [hreading] at hreads
  | some r =>
    rw [hreading, Option.isSome_some, if_pos rfl] at hc
    obtain rfl := Option.some.inj hc
    constructor
    · rintro rfl
      exact ⟨rfl, hreads⟩
    · exact fun h => h.1

/-- Whatever has happened in a session, the machine code that is written without a given path goes
beside the last file that was to be assembled, and holds the words of the last lines that were read.
Its words are those of this very file exactly when the file was opened and nothing has been assembled
after it. -/
theorem writeCode_of_lastFile (settings : Settings) (directory : Directory)
    (requests : List Request) {out : String}
    (h : (((start settings directory).after requests).perform (.writeCode none)).2 =
      .written out) :
    let s := (start settings directory).after requests
    let calls := (start settings directory).calls requests
    ∃ c f words source beside, lastReading calls = some c ∧ c.answer = .words words ∧
      lastFile calls = some f ∧ f.path = some source ∧
      source.withSuffix s.assembler.settings.outputSuffix = .ok beside ∧ out = beside.text ∧
      (s.perform (.writeCode none)).1.directory.read out = .ok (Utf8.encode (closeLines words)) ∧
      (c = f ↔ calls.getLast? = some f ∧ f.reading.isSome = true) := by
  intro s calls
  have hreflects : s.Reflects calls := reflects_after settings directory requests
  have hkind : Request.output? (.writeCode none) = some .code := rfl
  obtain ⟨hready, hpath, -, -⟩ := (answer_eq_written_iff hkind).1 h
  obtain ⟨c, words, hc, hanswer⟩ := hreflects.ready_iff.1 hready
  obtain ⟨r, -, hyields⟩ := hreflects.yields c words hc hanswer
  obtain ⟨source, beside, hsource, hbeside, hout⟩ := target?_writeCode_none_iff.1 hpath
  obtain ⟨f, hf, hfile⟩ := Option.bind_eq_some_iff.1 (hreflects.source_eq.symm.trans hsource)
  refine ⟨c, f, words, source, beside, hc, hanswer, hf, hfile, hbeside, hout, ?_, ?_⟩
  · have htext : s.assembler.program.outputText .code = closeLines words := by
      rw [← hyields.words_eq]
      rfl
    rw [← htext]
    exact read_of_written hkind h
  · exact lastReading_eq_lastFile_iff hreflects.reads_or_file hc hf

/-- A directory with one source. -/
def sourceDirectory : Directory := .ofNodes [("a.asm", .file (Utf8.encode "@1"))]

theorem writeCode_of_source :
    let start := start .default sourceDirectory
    let requests : List Request := [.assembleText "b.asm" "@", .assembleFile (.ofText "a.asm")]
    let s := start.after requests
    (s.perform (.writeCode none)).2 = .written "a.hack" ∧
      ∃ c words, (start.calls requests).getLast? = some c ∧ c.answer = .words words ∧
        (s.perform (.writeCode none)).1.directory.read "a.hack" =
          .ok (Utf8.encode (closeLines words)) := by
  intro start requests s
  have hwritten : (s.perform (.writeCode none)).2 = .written "a.hack" := by
    decide +kernel
  obtain ⟨c, f, words, source, beside, -, hanswer, hf, -, -, -, hread, hsame⟩ :=
    writeCode_of_lastFile .default sourceDirectory requests hwritten
  have hlast : (start.calls requests).getLast? = some f := hf
  have hopened : ((lastFile (start.calls requests)).all fun f => f.reading.isSome) = true := by
    decide +kernel
  rw [hf] at hopened
  obtain rfl := hsame.2 ⟨hlast, hopened⟩
  exact ⟨hwritten, c, words, hlast, hanswer, hread⟩

/-- The words of a text are written beside the file that was assembled before it, and the words of a
file beside one that is missing. -/
theorem writeCode_beside_other_source :
    let before := (start .default sourceDirectory).after [.assembleFile (.ofText "a.asm")]
    let behindText := (before.perform (.assembleText "b.asm" "@2")).1
    let behindFile := (before.perform (.assembleFile (.ofText "b.asm"))).1
    before.view .code = .words ["0000000000000001"] ∧
      behindText.view (.outputPath none) = .path (.ofText "a.hack") ∧
      (behindText.perform (.writeCode none)).2 = .written "a.hack" ∧
      sourceDirectory.changes (behindText.perform (.writeCode none)).1.directory =
        [("a.hack", Utf8.encode "0000000000000010\n")] ∧
      (before.perform (.assembleFile (.ofText "b.asm"))).2 =
        .refused (.directory (.notFound "b.asm")) ∧
      (behindFile.perform (.writeCode none)).2 = .written "b.hack" ∧
      sourceDirectory.changes (behindFile.perform (.writeCode none)).1.directory =
        [("b.hack", Utf8.encode "0000000000000001\n")] := by
  intro before behindText behindFile
  decide +kernel

end Session

end HackToolchain
