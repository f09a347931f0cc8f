import HackToolchain.Program.Generator

/-!
# Runs and their history

A code generator works on what it holds, and its runs may be broken off and leave traces. Each run
starts with a reset all the same, so nothing of its history reaches it: a run does what the first run
of a new generator would do, and leaves the same behind. Both are told by the statements and the
settings alone.
-/

namespace HackToolchain

namespace Generator

variable {g : Generator} {settings : Settings} {statements : List Statement}

/-- The generator that holds a program. -/
def ofProgram (settings : Settings) (p : Program) : Generator :=
  ⟨settings, p.symbols, p.allocator, p.words, p.listing, p.instructionCount⟩

/-- The generator with the results of some emission added to what it holds. -/
def emitted (g : Generator) (e : Emission) : Generator :=
  { g with
    symbols := e.bindings.symbols
    allocator := e.bindings.allocator
    words := g.words ++ e.listing.filterMap (·.word)
    listing := g.listing ++ e.listing }

theorem reset_eq_start (g : Generator) : g.reset = start g.settings := rfl

theorem ofProgram_empty (settings : Settings) : ofProgram settings (.empty settings) = start settings :=
  rfl

/-- A complete word takes one place among the words at hand. -/
theorem length_append_toList (words : List Word) (word : Option Word) :
    (words ++ word.toList).length = if word.isSome then words.length + 1 else words.length := by
  cases word <;> simp

/-- The second pass adds the lines of the emission to those at hand. The words at hand give the
first address. -/
theorem emit_eq (g : Generator) (statements : List Statement) :
    g.emit statements =
      (g.emitted (HackToolchain.emit g.settings ⟨g.symbols, g.allocator⟩ g.words.length statements),
        (HackToolchain.emit g.settings ⟨g.symbols, g.allocator⟩ g.words.length statements).fault) := by
  -- What is at hand grows with every statement, so the claim is about any generator.
  induction statements generalizing g with
  | nil => simp [emit, HackToolchain.emit, emitted]
  | cons s rest ih =>
    rw [emit, emitStatement, HackToolchain.emit]
    cases hencode : Bindings.encode g.settings ⟨g.symbols, g.allocator⟩ s with
    | mk b result =>
      cases result with
      | error fault => simp [emitted]
      | ok word =>
        simp only
        rw [ih, length_append_toList]
        simp only [emitted, Prod.mk.injEq, and_true]
        cases word <;> simp

/-- The two passes of a new generator produce the program of the run. -/
theorem passes_start (settings : Settings) (statements : List Statement) :
    (start settings).passes statements =
      (ofProgram settings (HackToolchain.generate settings statements).program,
        (HackToolchain.generate settings statements).fault) := by
  rw [passes, bindLabels, HackToolchain.generate]
  simp only [start]
  cases hfault : (HackToolchain.bindLabels .initial 0 statements).fault with
  | some fault => simp [ofProgram, Program.words]
  | none => simp [emit_eq, emitted, ofProgram, Program.words]

/-- A run of a generator is the run of the statements under its settings, whatever it held before:
it yields the words of that run and holds what that run leaves behind. -/
theorem generate_eq (g : Generator) (statements : List Statement) :
    g.generate statements =
      (ofProgram g.settings ((HackToolchain.generate g.settings statements).kept g.settings),
        (HackToolchain.generate g.settings statements).result) := by
  rw [generate, reset_eq_start, passes_start, Run.kept, Run.result]
  cases hfault : (HackToolchain.generate g.settings statements).fault with
  | none => rfl
  | some fault => cases fault <;> rfl

/-- A run leaves the program that the run of the statements keeps. -/
theorem program_generate (g : Generator) (statements : List Statement) :
    (g.generate statements).1.program =
      (HackToolchain.generate g.settings statements).kept g.settings := by
  rw [generate_eq]
  rfl

/-- A run yields what the run of the statements yields. -/
theorem result_generate (g : Generator) (statements : List Statement) :
    (g.generate statements).2 = (HackToolchain.generate g.settings statements).result := by
  rw [generate_eq]

/-- A run that succeeds leaves the program of the run of the statements. -/
theorem program_of_result {words : List Word} (h : (g.generate statements).2 = .ok words) :
    (HackToolchain.generate g.settings statements).result = .ok words ∧
      (g.generate statements).1.program =
        (HackToolchain.generate g.settings statements).program := by
  rw [result_generate] at h
  refine ⟨h, ?_⟩
  rw [program_generate, Run.kept, (Run.result_eq_ok_iff.1 h).1]

/-- The words and the listing are kept apart, but one request keeps them in step. -/
theorem words_perform (h : g.words = g.program.words) (request : Request) :
    (g.perform request).words = (g.perform request).program.words := by
  cases request with
  | configure settings => exact h
  | generate statements =>
    rw [perform, generate_eq]
    rfl

/-- So does any history. -/
theorem words_after (h : g.words = g.program.words) (history : List Request) :
    (g.after history).words = (g.after history).program.words := by
  induction history generalizing g with
  | nil => exact h
  | cons request rest ih => exact ih (words_perform h request)

/-- No history changes a run. However often a generator has run, whatever ended its runs and whichever
settings it had, it does what a new generator with its settings does, and then holds the same. If the
run ends with a diagnostic, this is what a generator holds that has never run; if it is broken off
otherwise, it is what the run has produced so far. -/
theorem generate_after (settings : Settings) (history : List Request) (statements : List Statement) :
    let g := (start settings).after history
    let run := HackToolchain.generate g.settings statements
    g.generate statements = (start g.settings).generate statements ∧
      (g.generate statements).2 = run.result ∧
      ((∃ d, (g.generate statements).2 = .error (.diagnosed d)) →
        (g.generate statements).1 = start g.settings) ∧
      ((∀ d, (g.generate statements).2 ≠ .error (.diagnosed d)) →
        (g.generate statements).1 = ofProgram g.settings run.program) := by
  intro g run
  have hresult : (g.generate statements).2 = run.result := by rw [generate_eq]
  have hkept : (g.generate statements).1 = ofProgram g.settings (run.kept g.settings) := by
    rw [generate_eq]
  refine ⟨?_, hresult, ?_, ?_⟩
  · rw [generate_eq, generate_eq]
    rfl
  · rintro ⟨d, hd⟩
    rw [hresult, Run.result] at hd
    rw [hkept, Run.kept]
    cases hfault : run.fault with
    | none => simp [hfault] at hd
    | some fault =>
      obtain rfl : fault = .diagnosed d := by simpa [hfault] using hd
      exact ofProgram_empty g.settings
  · intro hd
    rw [hresult, Run.result] at hd
    rw [hkept, Run.kept]
    cases hfault : run.fault with
    | none => rfl
    | some fault =>
      cases fault with
      | diagnosed d => simp [hfault] at hd
      | _ => rfl

/-- A history that ends with a run that is broken off, and then with other settings. -/
def brokenHistory : List Request :=
  [.configure { Settings.default with variableBase := -1 },
    .generate [⟨⟨"a.asm", 1, 1⟩, "@1", .addressLoad "1"⟩, ⟨⟨"a.asm", 2, 1⟩, "@x", .addressLoad "x"⟩],
    .configure .default]

/-- Statements that declare a label twice. -/
def twiceDeclared : List Statement :=
  [⟨⟨"a.asm", 1, 1⟩, "(A)", .label "A"⟩, ⟨⟨"a.asm", 2, 1⟩, "@A", .addressLoad "A"⟩,
    ⟨⟨"a.asm", 3, 1⟩, "(A)", .label "A"⟩]

theorem generate_after_brokenHistory :
    let g := (start .default).after brokenHistory
    g.words = ["0000000000000001"] ∧
      (∃ d, (g.generate twiceDeclared).2 = .error (.diagnosed d)) ∧
        (g.generate twiceDeclared).1 = start .default := by
  intro g
  have hwords : g.words = ["0000000000000001"] := by
    decide +kernel
  have hsettings : g.settings = .default := by
    decide +kernel
  obtain ⟨d, hfault⟩ : ∃ d, (HackToolchain.generate .default twiceDeclared).fault =
      some (.diagnosed d) :=
    ⟨⟨.duplicateSymbol "A" 1 0 (some ⟨"a.asm", 1, 1⟩), some ⟨"a.asm", 3, 1⟩, some "(A)"⟩,
      by decide +kernel⟩
  obtain ⟨-, hresult, hnothing, -⟩ := generate_after .default brokenHistory twiceDeclared
  have hdiagnosed : ∃ d, (g.generate twiceDeclared).2 = .error (.diagnosed d) := by
    refine ⟨d, hresult.trans ?_⟩
    rw [hsettings, Run.result, hfault]
  refine ⟨hwords, hdiagnosed, ?_⟩
  rw [← hsettings]
  exact hnothing hdiagnosed

end Generator

end HackToolchain
