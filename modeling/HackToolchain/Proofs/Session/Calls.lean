import HackToolchain.Session

/-!
# The calls of a session

What a session holds can be read off the calls that were made: the calls that assemble, with what
each got to read and what was answered. A call whose file is not opened reads nothing. Of the calls
that read something the last one decides what is at hand, and whether it may be written; of the calls
that were given a file the last one decides where the machine code goes by default.
-/

namespace HackToolchain

/-- Lines that were read: under which settings, under the name of which source, and what the source
has yielded. -/
structure Reading where
  settings : Settings
  file : String
  source : SourceFile

/-- A call that assembles: the file it was given, the lines it read, and its answer. A call may be
given no file, and it reads nothing from a file that is not opened. -/
structure Call where
  path : Option Path
  reading : Option Reading
  answer : Answer

/-- The last call that read lines. -/
def lastReading (calls : List Call) : Option Call :=
  calls.reverse.find? fun c => c.reading.isSome

/-- The last call that was given a file. -/
def lastFile (calls : List Call) : Option Call :=
  calls.reverse.find? fun c => c.path.isSome

namespace Reading

/-- The attempt to assemble the lines. -/
def attempt (r : Reading) : Attempt :=
  .ofSource r.settings r.file r.source

/-- The lines are read to their end and hold the statements. -/
def Holds (r : Reading) (statements : List Statement) : Prop :=
  Statement.ofLines r.file r.source.lines = .ok statements ∧ r.source.fault = none

/-- The lines hold statements whose run is not ended early; the run has produced the program, and the
words are its words. -/
def Yields (r : Reading) (program : Program) (words : List Word) : Prop :=
  ∃ statements, r.Holds statements ∧ (generate r.settings statements).result = .ok words ∧
    (generate r.settings statements).program = program

end Reading

namespace Session

/-- What a request gets to read. -/
def reading? (s : Session) : Request → Option Reading
  | .assembleText file text => some ⟨s.assembler.settings, file, ⟨Text.lines text, none⟩⟩
  | .assembleLines file source => some ⟨s.assembler.settings, file, source⟩
  | .assembleFile path =>
    match s.directory.read path.text with
    | .ok bytes => some ⟨s.assembler.settings, path.text, .ofBytes bytes⟩
    | .error _ => none
  | _ => none

/-- The call that a request makes, if it assembles. -/
def call? (s : Session) (request : Request) : Option Call :=
  match request with
  | .assembleText _ _ | .assembleLines _ _ =>
    some ⟨none, s.reading? request, (s.perform request).2⟩
  | .assembleFile path => some ⟨some path, s.reading? request, (s.perform request).2⟩
  | _ => none

/-- The calls that some requests make, in order. -/
def calls (s : Session) : List Request → List Call
  | [] => []
  | request :: rest => (s.call? request).toList ++ (s.perform request).1.calls rest

end Session

variable {calls : List Call} {c : Call} {r : Reading} {words : List Word} {program : Program}
variable {statements : List Statement} {a : Assembler} {s : Session} {request : Request}

/-! ### The last calls -/

theorem lastReading_concat : lastReading (calls ++ [c]) =
    if c.reading.isSome then some c else lastReading calls := by
  rw [lastReading, List.reverse_concat, List.find?_cons]
  cases c.reading <;> rfl

theorem lastFile_concat : lastFile (calls ++ [c]) =
    if c.path.isSome then some c else lastFile calls := by
  rw [lastFile, List.reverse_concat, List.find?_cons]
  cases c.path <;> rfl

theorem isSome_of_lastReading (h : lastReading calls = some c) : c.reading.isSome = true := by
  simpa using List.find?_some (p := fun c : Call => c.reading.isSome) h

/-! ### Assembling lines that were read -/

theorem mapError_eq_ok_iff {ε ε' α : Type} {x : Except ε α} {g : ε → ε'} {value : α} :
    x.mapError g = .ok value ↔ x = .ok value := by
  constructor
  · intro h
    cases x with
    | ok produced =>
      cases h
      rfl
    | error e => cases h
  · rintro rfl
    rfl

theorem Attempt.result_ran_eq_ok_iff {run : Run} :
    (ran statements run).result = .ok words ↔ run.fault = none ∧ run.program.words = words := by
  rw [result, mapError_eq_ok_iff, Run.result_eq_ok_iff]

theorem Reading.result_eq_ok_iff :
    r.attempt.result = .ok words ↔ ∃ program, r.Yields program words := by
  rw [attempt, Attempt.ofSource]
  cases hstatements : Statement.ofLines r.file r.source.lines with
  | error d => simp [Yields, Holds, Attempt.result, hstatements]
  | ok statements =>
    cases hsource : r.source.fault with
    | some fault => simp [Yields, Holds, Attempt.result, hsource]
    | none =>
      simp [Yields, Holds, Attempt.result_ran_eq_ok_iff, Run.result_eq_ok_iff, hstatements, hsource]

/-- The session is ready to write when the lines were assembled without failure. -/
theorem Assembler.ready_record :
    (a.record r.attempt).ready = true ↔ ∃ words, r.attempt.result = .ok words := by
  rw [Reading.attempt, Attempt.ofSource]
  cases Statement.ofLines r.file r.source.lines with
  | error d => simp [record, Attempt.result]
  | ok statements =>
    cases r.source.fault with
    | some fault => simp [record, Attempt.result]
    | none => simp [record, Attempt.result_ran_eq_ok_iff]

/-- What lines yield that were assembled without failure is at hand. -/
theorem Assembler.yields_record (h : r.attempt.result = .ok words) :
    r.Yields (a.record r.attempt).program words := by
  obtain ⟨program, statements, ⟨hstatements, hsource⟩, hresult, -⟩ := Reading.result_eq_ok_iff.1 h
  obtain ⟨hfault, -⟩ := Run.result_eq_ok_iff.1 hresult
  refine ⟨statements, ⟨hstatements, hsource⟩, hresult, ?_⟩
  simp [Reading.attempt, Attempt.ofSource, hstatements, hsource, record, Run.kept, hfault]

theorem Reading.Yields.words_eq (h : r.Yields program words) : program.words = words := by
  obtain ⟨statements, -, hresult, rfl⟩ := h
  exact (Run.result_eq_ok_iff.1 hresult).2

theorem Assembler.source_record (attempt : Attempt) : (a.record attempt).source = a.source := by
  cases attempt <;> rfl

/-! ### One request -/

theorem Answer.ofResult_words_eq_iff {result : Except Failure (List Word)} :
    Answer.ofResult .words result = .words words ↔ result = .ok words := by
  cases result <;> simp [ofResult]

namespace Session

/-- A call that reads lines leaves what assembling them leaves. -/
theorem perform_of_reading (hc : s.call? request = some c) (hr : c.reading = some r) :
    (s.perform request).1.assembler =
        { s.assembler with source := c.path.or s.assembler.source }.record r.attempt ∧
      c.answer = .ofResult .words r.attempt.result := by
  cases request with
  | assembleText file text =>
    obtain rfl := Option.some.inj hc
    obtain rfl := Option.some.inj hr
    exact ⟨rfl, rfl⟩
  | assembleLines file source =>
    obtain rfl := Option.some.inj hc
    obtain rfl := Option.some.inj hr
    exact ⟨rfl, rfl⟩
  | assembleFile path =>
    obtain rfl := Option.some.inj hc
    simp only [reading?] at hr
    simp only [perform, assembled, Assembler.assembleFile, Attempt.ofFile]
    cases hread : s.directory.read path.text with
    | error fault => simp [hread] at hr
    | ok bytes =>
      simp only [hread] at hr ⊢
      obtain rfl := Option.some.inj hr
      exact ⟨rfl, rfl⟩
  | _ => simp [call?] at hc

/-- A call that reads nothing was given a file, and leaves no more than its path. -/
theorem perform_of_not_reading (hc : s.call? request = some c) (hr : c.reading = none) :
    (s.perform request).1.assembler = { s.assembler with source := c.path } ∧
      c.path.isSome = true := by
  cases request with
  | assembleText file text =>
    obtain rfl := Option.some.inj hc
    simp [reading?] at hr
  | assembleLines file source =>
    obtain rfl := Option.some.inj hc
    simp [reading?] at hr
  | assembleFile path =>
    obtain rfl := Option.some.inj hc
    simp only [reading?] at hr
    simp only [perform, assembled, Assembler.assembleFile, Attempt.ofFile]
    cases hread : s.directory.read path.text with
    | error fault => exact ⟨rfl, rfl⟩
    | ok bytes => simp [hread] at hr
  | _ => simp [call?] at hc

/-- A request that does not assemble changes at most the settings of the assembler. -/
theorem perform_of_not_call (hc : s.call? request = none) : ∃ settings,
    (s.perform request).1.assembler = { s.assembler with settings := settings } := by
  cases request with
  | configure settings => exact ⟨settings, rfl⟩
  | look view => exact ⟨s.assembler.settings, rfl⟩
  | replaceFiles directory => exact ⟨s.assembler.settings, rfl⟩
  | write kind path => exact ⟨s.assembler.settings, rfl⟩
  | writeCode path => exact ⟨s.assembler.settings, rfl⟩
  | _ => simp [call?] at hc

/-- A session holds what its calls have left: it is ready to write when the last call that read lines
has succeeded, and holds what these lines yield; and it remembers the path of the last file. -/
structure Reflects (s : Session) (calls : List Call) : Prop where
  ready_iff : s.assembler.ready = true ↔
    ∃ c words, lastReading calls = some c ∧ c.answer = .words words
  yields : ∀ c words, lastReading calls = some c → c.answer = .words words →
    ∃ r, c.reading = some r ∧ r.Yields s.assembler.program words
  source_eq : s.assembler.source = (lastFile calls).bind Call.path
  reads_or_file : ∀ c ∈ calls, c.reading = none → c.path.isSome = true

theorem reflects_start (settings : Settings) (directory : Directory) :
    (start settings directory).Reflects [] where
  ready_iff := by simp [start, Assembler.start, lastReading]
  yields := by simp [lastReading]
  source_eq := rfl
  reads_or_file := by simp

theorem Reflects.reads_or_file_concat (h : s.Reflects calls)
    (hc : c.reading = none → c.path.isSome = true) :
    ∀ c' ∈ calls ++ [c], c'.reading = none → c'.path.isSome = true := by
  intro c' hc'
  rcases List.mem_append.1 hc' with hold | hnew
  · exact h.reads_or_file c' hold
  · obtain rfl := List.mem_singleton.1 hnew
    exact hc

/-- The lines of a call that reads some decide what is at hand. -/
theorem Reflects.perform_of_reading (h : s.Reflects calls) (hc : s.call? request = some c)
    (hr : c.reading = some r) : (s.perform request).1.Reflects (calls ++ [c]) := by
  obtain ⟨hassembler, hanswer⟩ := Session.perform_of_reading hc hr
  have hlast : lastReading (calls ++ [c]) = some c := by simp [lastReading_concat, hr]
  refine ⟨?_, ?_, ?_, ?_⟩
  · rw [hassembler, Assembler.ready_record, hlast]
    simp only [Option.some.injEq]
    constructor
    · rintro ⟨words, hresult⟩
      exact ⟨c, words, rfl, by rw [hanswer, Answer.ofResult_words_eq_iff, hresult]⟩
    · rintro ⟨_, words, rfl, hwords⟩
      exact ⟨words, by rwa [hanswer, Answer.ofResult_words_eq_iff] at hwords⟩
  · intro c' words hc' hwords
    obtain rfl : c = c' := Option.some.inj (hlast.symm.trans hc')
    rw [hanswer, Answer.ofResult_words_eq_iff] at hwords
    rw [hassembler]
    exact ⟨r, hr, Assembler.yields_record hwords⟩
  · -- Reading does not touch the path, which was set before the file was opened.
    rw [hassembler, Assembler.source_record, lastFile_concat]
    cases hpath : c.path with
    | none => simpa [hpath] using h.source_eq
    | some path => simp [hpath]
  · exact h.reads_or_file_concat fun hnone => by simp [hr] at hnone

/-- A call that reads nothing changes only the path that is remembered. -/
theorem Reflects.perform_of_not_reading (h : s.Reflects calls) (hc : s.call? request = some c)
    (hr : c.reading = none) : (s.perform request).1.Reflects (calls ++ [c]) := by
  obtain ⟨hassembler, hpath⟩ := Session.perform_of_not_reading hc hr
  -- The call is passed over when the last lines are looked for, but not when the last file is.
  have hlast : lastReading (calls ++ [c]) = lastReading calls := by simp [lastReading_concat, hr]
  refine ⟨?_, ?_, ?_, ?_⟩
  · rw [hassembler, hlast]
    exact h.ready_iff
  · rw [hassembler, hlast]
    exact h.yields
  · rw [hassembler, lastFile_concat, if_pos hpath]
    rfl
  · exact h.reads_or_file_concat fun _ => hpath

/-- One request keeps the session and its calls in step. -/
theorem Reflects.perform (h : s.Reflects calls) (request : Request) :
    (s.perform request).1.Reflects (calls ++ (s.call? request).toList) := by
  cases hc : s.call? request with
  | none =>
    obtain ⟨settings, hassembler⟩ := perform_of_not_call hc
    rw [Option.toList_none, List.append_nil]
    refine ⟨?_, ?_, ?_, h.reads_or_file⟩
    · rw [hassembler]
      exact h.ready_iff
    · rw [hassembler]
      exact h.yields
    · rw [hassembler]
      exact h.source_eq
  | some c =>
    cases hr : c.reading with
    | none => exact h.perform_of_not_reading hc hr
    | some r => exact h.perform_of_reading hc hr

/-- Any number of requests keep the session and its calls in step. -/
theorem Reflects.after (h : s.Reflects calls) (requests : List Request) :
    (s.after requests).Reflects (calls ++ s.calls requests) := by
  -- The calls that were made before go along, so the induction is for any session and its calls.
  induction requests generalizing s calls with
  | nil =>
    rw [Session.calls, List.append_nil]
    exact h
  | cons request rest ih =>
    rw [Session.calls, ← List.append_assoc]
    exact ih (h.perform request)

/-- A session holds what its calls have left. -/
theorem reflects_after (settings : Settings) (directory : Directory) (requests : List Request) :
    ((start settings directory).after requests).Reflects
      ((start settings directory).calls requests) :=
  (reflects_start settings directory).after requests

end Session

end HackToolchain
