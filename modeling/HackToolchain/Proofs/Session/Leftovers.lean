import HackToolchain.Proofs.Program.EarlyEnd
import HackToolchain.Proofs.Session.Calls

/-!
# What a failure leaves

An assembly that reads lines and fails leaves one of three things to be looked at. If no statements
come of the lines, it is the program that was there before. If the run of the statements ends with a
diagnostic, nothing is left. If the run is broken off otherwise, it is what has been generated by
then: all labels, the number of all instructions, and the words before the instruction that failed.
-/

namespace HackToolchain

open Denotation Text

variable {r : Reading} {statements : List Statement} {s : Session} {request : Request}
variable {failure : Failure} {i : Interruption}

/-! ### Lines that are not assembled -/

namespace Reading

theorem Holds.attempt_eq (h : r.Holds statements) :
    r.attempt = .ran statements (generate r.settings statements) := by
  rw [attempt, Attempt.ofSource, h.1, h.2]

/-- Lines hold statements, which then go through code generation, or the attempt ends before. -/
theorem attempt_cases (r : Reading) :
    (∃ failure, r.attempt = .unread failure ∧ ∀ statements, ¬ r.Holds statements) ∨
      ∃ statements, r.Holds statements := by
  simp only [attempt, Attempt.ofSource, Holds]
  cases Statement.ofLines r.file r.source.lines with
  | error d => exact .inl ⟨_, rfl, by simp⟩
  | ok statements =>
    cases r.source.fault with
    | some fault => exact .inl ⟨_, rfl, by simp⟩
    | none => exact .inr ⟨statements, rfl, rfl⟩

/-- The run of statements from lines that are not assembled is ended early. -/
theorem Holds.exists_fault (h : r.Holds statements) (hfailure : r.attempt.result = .error failure) :
    ∃ i, (generate r.settings statements).fault = some i := by
  cases hfault : (generate r.settings statements).fault with
  | some i => exact ⟨i, rfl⟩
  | none =>
    rw [h.attempt_eq, Attempt.result_ran_eq_ok_iff.2 ⟨hfault, rfl⟩] at hfailure
    simp at hfailure

end Reading

/-! ### What can be looked at -/

namespace Session

/-- There is no code to be looked at, no instruction, and no symbol but the predefined ones. -/
def ShowsNothing (s : Session) : Prop :=
  s.view .code = .words [] ∧ s.view .instructionCount = .instructionCount 0 ∧
    s.view .symbols = .symbols .initial

theorem showsNothing_iff : s.ShowsNothing ↔ s.assembler.program.words = [] ∧
    s.assembler.program.instructionCount = 0 ∧ s.assembler.program.symbols = .initial := by
  simp [ShowsNothing, view]

theorem exists_call_of_reading? (h : s.reading? request = some r) :
    ∃ path, s.call? request = some ⟨path, some r, (s.perform request).2⟩ := by
  cases request with
  | assembleText file text => exact ⟨none, by rw [call?, h]⟩
  | assembleLines file source => exact ⟨none, by rw [call?, h]⟩
  | assembleFile path => exact ⟨some path, by rw [call?, h]⟩
  | _ => simp [reading?] at h

/-- A request that reads lines leaves the program that is recorded with them. -/
theorem program_perform (h : s.reading? request = some r) :
    (s.perform request).1.assembler.program = (s.assembler.record r.attempt).program := by
  obtain ⟨path, hcall⟩ := exists_call_of_reading? h
  rw [(perform_of_reading hcall rfl).1]
  cases r.attempt <;> rfl

theorem result_of_refused (h : s.reading? request = some r)
    (hrefused : (s.perform request).2 = .refused failure) : r.attempt.result = .error failure := by
  obtain ⟨path, hcall⟩ := exists_call_of_reading? h
  have hanswer : (s.perform request).2 = .ofResult .words r.attempt.result :=
    (perform_of_reading hcall rfl).2
  rw [hrefused] at hanswer
  cases hresult : r.attempt.result with
  | ok words => simp [hresult, Answer.ofResult] at hanswer
  | error other =>
    rw [hresult] at hanswer
    rw [Answer.refused.inj hanswer]

/-! ### What a failure leaves -/

/-- Lines of which no statements come leave the program that was there before. -/
theorem program_of_not_holds (h : s.reading? request = some r)
    (hnone : ∀ statements, ¬ r.Holds statements) :
    (s.perform request).1.assembler.program = s.assembler.program := by
  rcases r.attempt_cases with ⟨failure, hattempt, -⟩ | ⟨statements, hholds⟩
  · rw [program_perform h, hattempt]
    rfl
  · exact absurd hholds (hnone statements)

/-- A run that ends with a diagnostic leaves nothing. -/
theorem showsNothing_of_diagnosed {d : Diagnostic} (h : s.reading? request = some r)
    (hholds : r.Holds statements)
    (hfault : (generate r.settings statements).fault = some (.diagnosed d)) :
    (s.perform request).1.ShowsNothing := by
  rw [showsNothing_iff, program_perform h, hholds.attempt_eq]
  simp only [Assembler.record, Run.kept, hfault]
  exact ⟨rfl, rfl, rfl⟩

/-- A run that is broken off without a diagnostic leaves what it has generated. -/
theorem program_of_interrupted (h : s.reading? request = some r) (hholds : r.Holds statements)
    (hfault : (generate r.settings statements).fault = some i) (hi : ∀ d, i ≠ .diagnosed d) :
    (s.perform request).1.assembler.program = (generate r.settings statements).program := by
  rw [program_perform h, hholds.attempt_eq]
  cases i with
  | diagnosed d => exact absurd rfl (hi d)
  | _ => simp only [Assembler.record, Run.kept, hfault]

/-- What numbered lines leave that are not assembled, whatever the session has held before. If the
lines hold no statements, the program that was there before stays to be looked at; if the run of the
statements is ended without a diagnostic, its program stays as far as it goes. Only a diagnostic of
the run drops everything. -/
theorem leftovers_of_refused (h : s.reading? request = some r)
    (hrefused : (s.perform request).2 = .refused failure)
    (hlines : Source.IsNumbered r.source.lines) :
    let behind := (s.perform request).1
    (behind.ShowsNothing ↔ ((∀ statements, ¬ r.Holds statements) ∧ s.ShowsNothing) ∨
        ∃ statements d, r.Holds statements ∧
          (generate r.settings statements).fault = some (.diagnosed d)) ∧
      ((∀ statements, ¬ r.Holds statements) →
        behind.assembler.program = s.assembler.program) ∧
      ∀ statements i, r.Holds statements → (generate r.settings statements).fault = some i →
        (∀ d, i ≠ .diagnosed d) → behind.assembler.program.BreaksOff r.settings statements := by
  intro behind
  have hunread : (∀ statements, ¬ r.Holds statements) →
      behind.assembler.program = s.assembler.program := program_of_not_holds h
  have hbroken : ∀ statements i, r.Holds statements →
      (generate r.settings statements).fault = some i → (∀ d, i ≠ .diagnosed d) →
        behind.assembler.program.BreaksOff r.settings statements := by
    intro statements i hholds hfault hi
    rw [program_of_interrupted h hholds hfault hi]
    exact generate_of_interrupted hlines hholds.1 hfault hi
  refine ⟨⟨?_, ?_⟩, hunread, hbroken⟩
  · -- A failure comes from the lines or from the run, and a run that breaks off counts instructions.
    intro hnothing
    rcases r.attempt_cases with ⟨_, -, hnone⟩ | ⟨statements, hholds⟩
    · refine .inl ⟨hnone, ?_⟩
      rw [showsNothing_iff] at hnothing ⊢
      rwa [← hunread hnone]
    · obtain ⟨i, hfault⟩ := hholds.exists_fault (result_of_refused h hrefused)
      by_cases hi : ∃ d, i = .diagnosed d
      · obtain ⟨d, rfl⟩ := hi
        exact .inr ⟨statements, d, hholds, hfault⟩
      · have hbreaks := hbroken statements i hholds hfault (not_exists.1 hi)
        exact absurd (showsNothing_iff.1 hnothing).2.1 hbreaks.instructionCount_ne_zero
  · rintro (⟨hnone, hnothing⟩ | ⟨statements, d, hholds, hfault⟩)
    · rw [showsNothing_iff] at hnothing ⊢
      rwa [hunread hnone]
    · exact showsNothing_of_diagnosed h hholds hfault

/-- A session in which one instruction has been assembled. -/
def oneInstruction : Session := (start .default .empty).after [.assembleText "a.asm" "@1"]

theorem leftovers_of_malformed :
    let behind := oneInstruction.perform (.assembleText "a.asm" "@")
    (∃ failure, behind.2 = .refused failure) ∧ Source.IsNumbered (Text.lines "@") ∧
      behind.1.assembler.program = oneInstruction.assembler.program := by
  intro behind
  have hrefused : behind.2 =
      .refused (.diagnosed ⟨.malformed .missingOperand, some ⟨"a.asm", 1, 2⟩, some "@"⟩) := by
    decide +kernel
  have hreading : oneInstruction.reading? (.assembleText "a.asm" "@") =
      some ⟨oneInstruction.assembler.settings, "a.asm", ⟨Text.lines "@", none⟩⟩ := rfl
  have hlines : Source.IsNumbered (Text.lines "@") :=
    Source.isNumbered_of_length_le (by decide +kernel)
  obtain ⟨-, hunread, -⟩ := leftovers_of_refused hreading hrefused hlines
  refine ⟨⟨_, hrefused⟩, hlines, hunread ?_⟩
  rintro statements ⟨hstatements, -⟩
  have hnone : (Statement.ofLines "a.asm" (Text.lines "@")).toOption = none := by
    decide +kernel
  simp [hstatements, Except.toOption] at hnone

/-- The text of a variable and of a literal. -/
def variableThenLiteralText (literal : String) : String :=
  "@x\n@" ++ literal

theorem ofLines_variableThenLiteralText {literal : String} (h : Numeral.isLiteral literal = true) :
    Statement.ofLines "a.asm" (Text.lines (variableThenLiteralText literal)) =
      .ok (variableThenLiteral literal) := by
  obtain ⟨hsolid, hne⟩ := isSolid_of_isLiteral h
  have hline : IsSolid ("@" ++ literal).toList := by
    rw [String.toList_append, isSolid_append]
    exact ⟨isSolid_cons.2 ⟨rfl, isSolid_nil⟩, hsolid⟩
  have htext : (variableThenLiteralText literal).toList =
      "@x".toList ++ '\n' :: ("@" ++ literal).toList := by
    rw [variableThenLiteralText, String.toList_append, String.toList_append]
    rfl
  have hlines : Text.lines (variableThenLiteralText literal) = ["@x", "@" ++ literal] := by
    have hload : IsSolid "@x".toList := by decide
    have hpair : '\n' ≠ '\r' := by decide
    rw [Text.lines, htext, splitLines_append_break rfl rfl (fun _ hreturn => absurd hreturn hpair)
      (isLineBreak_of_isSolid hload), splitLines_of_forall_not (by simp) rfl (isLineBreak_of_isSolid hline)]
    simp
  have hx : IsSolid "x".toList := by decide
  rw [hlines, Statement.ofLines, Statement.ofLinesFrom, Statement.ofLinesFrom, Statement.ofLinesFrom,
    Statement.ofLine_addressLoad "a.asm" 2 hsolid hne, show "@x" = "@" ++ "x" from rfl,
    Statement.ofLine_addressLoad "a.asm" 1 hx (by simp)]
  rfl

/-- A literal that is too long leaves the words before it, the number of all instructions, and the
variables that were used by then. -/
theorem perform_variableThenLiteralText {literal : String}
    (hliteral : Numeral.isLiteral literal = true) (hlong : Numeral.digitLimit < literal.toList.length) :
    let overlong := (start .default .empty).perform
      (.assembleText "a.asm" (variableThenLiteralText literal))
    overlong.2 = .refused (.numeral (.tooLong literal.toList.length)) ∧
      overlong.1.view .code = .words ["0000000000010000"] ∧
      overlong.1.view .instructionCount = .instructionCount 2 ∧
      overlong.1.view .symbols =
        .symbols ⟨SymbolTable.initial.entries ++ [⟨"x", 16, .var, some ⟨"a.asm", 1, 1⟩⟩]⟩ := by
  intro overlong
  have hfirst : Bindings.encode .default ⟨.initial, .ofBase 16 Machine.reserved⟩
      ⟨⟨"a.asm", 1, 1⟩, "@x", .addressLoad "x"⟩ =
        (⟨⟨SymbolTable.initial.entries ++ [⟨"x", 16, .var, some ⟨"a.asm", 1, 1⟩⟩]⟩,
          ⟨17, Machine.reserved, [16]⟩⟩, .ok (some "0000000000010000")) := rfl
  have hrun := generate_variableThenLiteral hliteral hlong hfirst
  have hholds : Reading.Holds
      ⟨.default, "a.asm", ⟨Text.lines (variableThenLiteralText literal), none⟩⟩
      (variableThenLiteral literal) := ⟨ofLines_variableThenLiteralText hliteral, rfl⟩
  have hreading : (start .default .empty).reading?
      (.assembleText "a.asm" (variableThenLiteralText literal)) =
        some ⟨.default, "a.asm", ⟨Text.lines (variableThenLiteralText literal), none⟩⟩ := rfl
  have hprogram := program_of_interrupted hreading hholds (congrArg Run.fault hrun) (by simp)
  rw [hrun] at hprogram
  refine ⟨?_, ?_, ?_, ?_⟩
  · obtain ⟨path, hcall⟩ := exists_call_of_reading? hreading
    refine (perform_of_reading hcall rfl).2.trans ?_
    rw [hholds.attempt_eq, hrun]
    rfl
  · exact congrArg (fun p : Program => Answer.words p.words) hprogram
  · exact congrArg (fun p : Program => Answer.instructionCount p.instructionCount) hprogram
  · exact congrArg (fun p : Program => Answer.symbols p.symbols) hprogram

/-- A malformed line leaves the code of the text before it, and a literal that is too long leaves a
part of its own program. -/
theorem leftovers_after_failures :
    let malformed := oneInstruction.perform (.assembleText "a.asm" "@")
    let overlong := (start .default .empty).perform
      (.assembleText "a.asm" (variableThenLiteralText longLiteral))
    (malformed.2 =
        .refused (.diagnosed ⟨.malformed .missingOperand, some ⟨"a.asm", 1, 2⟩, some "@"⟩) ∧
      malformed.1.view .code = .words ["0000000000000001"] ∧
      malformed.1.view .instructionCount = .instructionCount 1) ∧
    overlong.2 = .refused (.numeral (.tooLong longLiteral.toList.length)) ∧
      overlong.1.view .code = .words ["0000000000010000"] ∧
      overlong.1.view .instructionCount = .instructionCount 2 ∧
      overlong.1.view .symbols =
        .symbols ⟨SymbolTable.initial.entries ++ [⟨"x", 16, .var, some ⟨"a.asm", 1, 1⟩⟩]⟩ :=
  ⟨by decide +kernel, perform_variableThenLiteralText isLiteral_longLiteral lt_length_longLiteral⟩

end Session

end HackToolchain
