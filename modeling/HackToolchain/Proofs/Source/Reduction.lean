import HackToolchain.Proofs.Acceptance
import HackToolchain.Proofs.Program.Placement
import HackToolchain.Proofs.Source.Numbering

/-!
# Layout and comments

Of a source line, only a part is read: an instruction up to its first blank, and a declaration up to
its first closing parenthesis. Outer blanks, empty lines, comments and what stands behind the part
that is read make no difference to a program. Two sources that agree in what is read of them are
assembled to the same words and the same symbols, or refused for the same cause; only the places and
the quoted lines of diagnostics, symbols and listings may differ.

A message tells the number of a line, so the lines of both sources have to be numbered: the same fault
could not be reported where its line number is too long. Every list of lines that an index counts is
numbered.
-/

namespace HackToolchain

open Text

variable {settings : Settings} {line part raw name file file' : String} {cs : List Char}
variable {lines lines' raws : List String} {statements statements' : List Statement} {s : Statement}
variable {number : Nat} {c : Command} {d : Diagnostic} {a : Assembler}

/-! ### What is read of a line -/

namespace Source

/-- The characters up to the first closing parenthesis, which is the last one of them. -/
def throughParenthesis (cs : List Char) : List Char :=
  cs.takeWhile (· ≠ ')') ++ (cs.dropWhile (· ≠ ')')).take 1

/-- What is read of a line without outer blanks; none if the line is skipped. -/
def readPart? (line : String) : Option String :=
  match LineKind.of line with
  | .skip => none
  | .addressLoad | .compute => some (String.ofList (untilBlank line.toList))
  | .label => some (String.ofList (throughParenthesis line.toList))

/-- What is read of the lines of a source. -/
def reduced (lines : List String) : List String :=
  lines.filterMap fun raw => readPart? (trim raw)

theorem reduced_cons (raw : String) (raws : List String) :
    reduced (raw :: raws) = (readPart? (trim raw)).toList ++ reduced raws := by
  rw [reduced, reduced, List.filterMap_cons]
  cases readPart? (trim raw) <;> rfl

/-- Either the characters are closed by a parenthesis, or all of them are read. -/
theorem throughParenthesis_cases (cs : List Char) :
    (')' ∉ cs ∧ throughParenthesis cs = cs) ∨
      ∃ front rest, cs = front ++ ')' :: rest ∧ ')' ∉ front ∧
        throughParenthesis cs = front ++ [')'] := by
  by_cases hclosed : ')' ∈ cs
  · obtain ⟨front, rest, rfl, hfront⟩ := List.eq_append_cons_of_mem hclosed
    have hall : ∀ c ∈ front, decide (c ≠ ')') = true := fun c hc =>
      decide_eq_true fun heq : c = ')' => hfront (heq ▸ hc)
    refine .inr ⟨front, rest, rfl, hfront, ?_⟩
    rw [throughParenthesis, List.takeWhile_append_of_pos hall, List.dropWhile_append_of_pos hall]
    simp
  · have hall : ∀ c ∈ cs, decide (c ≠ ')') = true := fun c hc =>
      decide_eq_true fun heq : c = ')' => hclosed (heq ▸ hc)
    refine .inl ⟨hclosed, ?_⟩
    rw [throughParenthesis, List.takeWhile_eq_self_iff.2 hall, List.dropWhile_eq_nil_iff.2 hall]
    simp

theorem throughParenthesis_cons {c : Char} (hc : c ≠ ')') :
    throughParenthesis (c :: cs) = c :: throughParenthesis cs := by
  simp [throughParenthesis, hc]

end Source

theorem Text.untilBlank_cons {c : Char} (hc : isBlank c = false) :
    untilBlank (c :: cs) = c :: untilBlank cs := by
  simp [untilBlank, hc]

/-- A text without outer blanks does not begin with one. -/
theorem Text.isBlank_of_head?_trim {c : Char} (h : (trim raw).toList.head? = some c) :
    isBlank c = false := by
  rw [head?_trim] at h
  have hnot := List.head?_dropWhile_not isBlank raw.toList
  simpa [h] using hnot

namespace LineKind

/-- The kind of a line is that of its first character. -/
theorem of_eq_of_head?_eq (h : part.toList.head? = line.toList.head?) : of part = of line := by
  rw [of, of]
  cases hpart : part.toList <;> cases hline : line.toList <;> simp_all

theorem of_untilBlank {c : Char} (hline : line.toList = c :: cs) (hc : isBlank c = false) :
    of (String.ofList (untilBlank line.toList)) = of line := by
  apply of_eq_of_head?_eq
  rw [String.toList_ofList, hline, untilBlank_cons hc, List.head?_cons, List.head?_cons]

theorem of_throughParenthesis {c : Char} (hline : line.toList = c :: cs) (hc : c ≠ ')') :
    of (String.ofList (Source.throughParenthesis line.toList)) = of line := by
  apply of_eq_of_head?_eq
  rw [String.toList_ofList, hline, Source.throughParenthesis_cons hc, List.head?_cons,
    List.head?_cons]

end LineKind

namespace Source

/-- The operand stands in the part of a line that is read. -/
theorem operand_untilBlank {c : Char} (hline : line.toList = c :: cs) (hc : isBlank c = false) :
    operand (String.ofList (untilBlank line.toList)) = operand line := by
  rw [operand, operand, String.toList_ofList, hline, untilBlank_cons hc, List.drop_succ_cons,
    List.drop_zero, List.drop_succ_cons, List.drop_zero, untilBlank_of_isSolid isSolid_untilBlank]

theorem fields_untilBlank :
    Source.fields (String.ofList (untilBlank line.toList)) = Source.fields line := by
  rw [Source.fields, Source.fields, String.toList_ofList, untilBlank_of_isSolid isSolid_untilBlank]

/-- The name of a label stands in the part of a line that is read, and an unterminated declaration is
read as a whole. -/
theorem labelName_throughParenthesis {c : Char} (hline : line.toList = c :: cs) (hc : c ≠ ')') :
    labelName (String.ofList (throughParenthesis line.toList)) = labelName line := by
  rw [hline, throughParenthesis_cons hc]
  rcases throughParenthesis_cases cs with ⟨-, hwhole⟩ | ⟨front, rest, hcs, hfront, hclosed⟩
  · rw [hwhole, ← hline, String.ofList_toList]
  · have hall : ∀ c ∈ front, decide (c ≠ ')') = true := fun c hc =>
      decide_eq_true fun heq : c = ')' => hfront (heq ▸ hc)
    rw [labelName, labelName, String.toList_ofList, hline, hclosed, hcs]
    simp only [List.drop_succ_cons, List.drop_zero, List.takeWhile_append_of_pos hall]
    simp

end Source

namespace Statement

/-- The command of a line is that of the part that is read. -/
theorem commandOf_readPart (h : Source.readPart? (trim raw) = some part) :
    commandOf part = commandOf (trim raw) := by
  rw [Source.readPart?] at h
  cases hline : (trim raw).toList with
  | nil => simp [LineKind.of, hline] at h
  | cons c cs =>
    have hc : isBlank c = false := isBlank_of_head?_trim (by rw [hline, List.head?_cons])
    cases hkind : LineKind.of (trim raw) with
    | skip => simp [hkind] at h
    | addressLoad =>
      obtain rfl : String.ofList (untilBlank (trim raw).toList) = part := by simpa [hkind] using h
      rw [commandOf, commandOf, LineKind.of_untilBlank hline hc, hkind]
      simp only [Source.operand_untilBlank hline hc]
    | compute =>
      obtain rfl : String.ofList (untilBlank (trim raw).toList) = part := by simpa [hkind] using h
      rw [commandOf, commandOf, LineKind.of_untilBlank hline hc, hkind]
      simp only [Source.fields_untilBlank]
    | label =>
      have hparenthesis : c ≠ ')' := by
        rintro rfl
        simp [LineKind.of, hline] at hkind
      obtain rfl : String.ofList (Source.throughParenthesis (trim raw).toList) = part := by
        simpa [hkind] using h
      rw [commandOf, commandOf, LineKind.of_throughParenthesis hline hparenthesis, hkind]
      simp only [Source.labelName_throughParenthesis hline hparenthesis]

theorem commandOf_of_readPart?_eq_none (h : Source.readPart? line = none) :
    commandOf line = .ok none := by
  rw [Source.readPart?] at h
  rw [commandOf]
  cases hkind : LineKind.of line <;> simp [hkind] at h ⊢

/-! ### What is read of a source -/

/-- The commands of lines without outer blanks, or the fault of the first malformed line of them. -/
def commands : List String → Except Source.Fault (List Command)
  | [] => .ok []
  | line :: rest =>
    match commandOf line with
    | .error fault => .error fault
    | .ok command => (commands rest).map (command.toList ++ ·)

/-- The commands of a source whose first line is read are those of this line and of the others. -/
theorem commands_reduced_cons {command : Option Command} (raws : List String)
    (h : commandOf (trim raw) = .ok command) :
    commands (Source.reduced (raw :: raws)) =
      (commands (Source.reduced raws)).map (command.toList ++ ·) := by
  rw [Source.reduced_cons]
  cases hpart : Source.readPart? (trim raw) with
  | none =>
    rw [commandOf_of_readPart?_eq_none hpart] at h
    obtain rfl := Except.ok.inj h
    simp only [Option.toList_none, List.nil_append]
    cases commands (Source.reduced raws) <;> rfl
  | some part => simp only [Option.toList_some, List.cons_append, List.nil_append, commands,
      commandOf_readPart hpart, h]

/-- The commands of a source are those of what is read of it. -/
theorem commands_reduced (h : ofLinesFrom file number raws = .ok statements) :
    commands (Source.reduced raws) = .ok (statements.map (·.command)) := by
  induction raws generalizing number statements with
  | nil =>
    obtain rfl := Except.ok.inj h
    rfl
  | cons raw raws ih =>
    obtain ⟨statement, behind, hraw, hbehind, rfl⟩ := ofLinesFrom_cons_eq_ok_iff.1 h
    obtain ⟨command, hcommand, rfl⟩ := ofLine_eq_ok_iff.1 hraw
    rw [commands_reduced_cons raws hcommand, ih hbehind]
    cases command <;> rfl

/-- A source that is not read is refused for the fault of what is read of it. -/
theorem fault_of_ofLinesFrom (h : ofLinesFrom file number raws = .error d) :
    ∃ fault raw n, commands (Source.reduced raws) = .error fault ∧
      commandOf (trim raw) = .error fault ∧ n < number + raws.length ∧
      d = fault.diagnostic (some ⟨file, n, 1⟩) (trim raw) := by
  induction raws generalizing number with
  | nil => simp [ofLinesFrom] at h
  | cons first raws ih =>
    cases hfirst : commandOf (trim first) with
    | error fault =>
      have hline : ofLinesFrom file number (first :: raws) =
          .error (fault.diagnostic (some ⟨file, number, 1⟩) (trim first)) :=
        ofLinesFrom_cons_eq_error_iff.2 (.inl (ofLine_eq_error_iff.2 ⟨fault, hfirst, rfl⟩))
      obtain rfl := Except.error.inj (h.symm.trans hline)
      refine ⟨fault, first, number, ?_, hfirst, by simp, rfl⟩
      rw [Source.reduced_cons]
      cases hpart : Source.readPart? (trim first) with
      | none => simp [commandOf_of_readPart?_eq_none hpart] at hfirst
      | some part => simp only [Option.toList_some, List.cons_append, List.nil_append, commands,
          commandOf_readPart hpart, hfirst]
    | ok command =>
      have hwell : ¬ Source.IsMalformed (trim first) := by
        rw [← exists_commandOf_error_iff, hfirst]
        simp
      have hrest := (ofLinesFrom_cons_eq_error_iff.1 h).resolve_left (by simp [ofLine, hfirst])
      obtain ⟨fault, raw, n, hcommands, hraw, hn, rfl⟩ := ih hrest.2
      refine ⟨fault, raw, n, ?_, hraw, by simp only [List.length_cons]; omega, rfl⟩
      rw [commands_reduced_cons raws hfirst, hcommands]
      rfl

/-! ### Diagnostics within their lines -/

/-- A command is read from a line within which its faults are reported. -/
theorem faultColumn_le (h : commandOf line = .ok (some c)) (cause : Cause) :
    c.faultColumn 1 cause ≤ line.toList.length + 1 := by
  cases c with
  | addressLoad operand =>
    have hlength := length_of_operand (operand_of_commandOf h)
    simp only [Command.faultColumn]
    omega
  | compute fields =>
    have hfields := fields_of_commandOf h
    cases cause with
    | unknownMnemonic field mnemonic similar =>
      simp only [Command.faultColumn]
      split
      · have hstart := Fields.start_le (f := .comp) hfields rfl
        rw [Fields.compColumn_eq hfields]
        omega
      · split
        · rw [Fields.jumpColumn_eq hfields]
          split
          case isTrue hwritten =>
            obtain ⟨jump, hjump⟩ := Option.isSome_iff_exists.1 hwritten
            have hstart := Fields.start_le (f := .jump) hfields hjump
            omega
          case isFalse => omega
        · omega
    | _ =>
      simp only [Command.faultColumn]
      omega
  | label name =>
    simp only [Command.faultColumn]
    omega
  | remark =>
    simp only [Command.faultColumn]
    omega

/-- The diagnostics of a source of numbered lines can be written, and they point into the lines. -/
theorem fits_of_ofLines (hlines : Source.IsNumbered lines)
    (h : ofLines file lines = .ok statements) : ∀ s ∈ statements, s.Fits := by
  intro s hs
  refine ⟨(numbered_of_ofLines hlines h).place s hs, fun cause => ?_⟩
  obtain ⟨before, after, rfl⟩ := List.append_of_mem hs
  obtain ⟨front, raw, back, -, -, hraw⟩ := exists_line_of_ofLinesFrom h
  obtain ⟨hcommand, hlocation, hsource⟩ := ofLine_eq_some_iff.1 hraw
  rw [faultPlace, Location.atColumn, hlocation, hsource]
  exact faultColumn_le hcommand cause

/-- The fault of a malformed line is reported alike wherever the line stands. -/
theorem unplaced_ofDiagnostic_malformed {fault : Source.Fault} {raw' : String} {n n' : Nat}
    (hraw : commandOf (trim raw) = .error fault) (hraw' : commandOf (trim raw') = .error fault)
    (hn : Numeral.isWritable n = true) (hn' : Numeral.isWritable n' = true) :
    (Interruption.ofDiagnostic ampleMemory
        (fault.diagnostic (some ⟨file, n, 1⟩) (trim raw))).unplaced =
      (Interruption.ofDiagnostic ampleMemory
        (fault.diagnostic (some ⟨file', n', 1⟩) (trim raw'))).unplaced := by
  have hindex := index_le_of_commandOf hraw
  have hindex' := index_le_of_commandOf hraw'
  have hcaret : Diagnostic.caretObstacle? ampleMemory (some ⟨file, n, fault.index + 1⟩)
      (some (trim raw)) = none := Diagnostic.caretObstacle?_eq_none (by simp only; omega)
  have hcaret' : Diagnostic.caretObstacle? ampleMemory (some ⟨file', n', fault.index + 1⟩)
      (some (trim raw')) = none := Diagnostic.caretObstacle?_eq_none (by simp only; omega)
  refine Interruption.unplaced_ofDiagnostic ?_ rfl
  simp only [Source.Fault.diagnostic, Diagnostic.obstacle?, Diagnostic.numbers, Cause.numbers,
    Option.map_some, Option.getD_some, Location.atColumn, Location.numbers, List.nil_append,
    List.findSome?_cons, numberObstacle?_eq_none_iff.2 hn, numberObstacle?_eq_none_iff.2 hn',
    hcaret, hcaret']

/-- Statements that fit and have the same commands, one by one, are alike. -/
theorem forall₂_alike (h : statements.map (·.command) = statements'.map (·.command))
    (hfits : ∀ s ∈ statements, s.Fits) (hfits' : ∀ s ∈ statements', s.Fits) :
    List.Forall₂ Alike statements statements' := by
  induction statements generalizing statements' with
  | nil =>
    obtain rfl := List.map_eq_nil_iff.1 h.symm
    exact .nil
  | cons s rest ih =>
    obtain ⟨s', rest', rfl, hs, hrest⟩ := List.map_eq_cons_iff.1 h.symm
    obtain ⟨hfit, hfits⟩ := List.forall_mem_cons.1 hfits
    obtain ⟨hfit', hfits'⟩ := List.forall_mem_cons.1 hfits'
    exact .cons ⟨hs.symm, hfit, hfit'⟩ (ih hrest.symm hfits hfits')

end Statement

/-! ### Sessions -/

namespace Failure

/-- A failure that does not tell where the source is at fault. -/
def unplaced : Failure → Failure
  | diagnosed d => diagnosed d.unplaced
  | other => other

/-- The description of a failure, without the place, the source line and the hint of a diagnostic. -/
def detail : Failure → String
  | diagnosed d => d.cause.detail
  | other => other.message

theorem detail_unplaced (failure : Failure) : failure.unplaced.detail = failure.detail := by
  cases failure with
  | diagnosed d => exact d.cause.detail_unplaced
  | _ => rfl

theorem ofInterruption_unplaced (i : Interruption) :
    ofInterruption i.unplaced = (ofInterruption i).unplaced := by
  cases i <;> rfl

end Failure

namespace Assembler

/-- A session that does not tell where its program stands. -/
def unplaced (a : Assembler) : Assembler :=
  { a with program := a.program.unplaced }

/-- Sources that agree in what is read of them are both assembled or both refused, and leave sessions
that only differ in places. -/
theorem assembleLines_cases (a : Assembler) (file file' : String)
    (h : Source.reduced lines = Source.reduced lines') (hlines : Source.IsNumbered lines)
    (hlines' : Source.IsNumbered lines') :
    ((∃ words, (a.assembleLines file lines).2 = .ok words ∧
        (a.assembleLines file' lines').2 = .ok words) ∨
      ∃ failure failure', (a.assembleLines file lines).2 = .error failure ∧
        (a.assembleLines file' lines').2 = .error failure' ∧
          failure'.unplaced = failure.unplaced) ∧
    (a.assembleLines file lines).1.unplaced = (a.assembleLines file' lines').1.unplaced := by
  rw [assembleLines, assembleLines, Attempt.ofSource, Attempt.ofSource]
  cases hread : Statement.ofLines file lines with
  | error d =>
    obtain ⟨fault, raw, n, hcommands, hraw, hn, rfl⟩ := Statement.fault_of_ofLinesFrom hread
    rw [h] at hcommands
    cases hread' : Statement.ofLines file' lines' with
    | error d' =>
      obtain ⟨fault', raw', n', hcommands', hraw', hn', rfl⟩ := Statement.fault_of_ofLinesFrom hread'
      obtain rfl := Except.error.inj (hcommands.symm.trans hcommands')
      have hnumber : Numeral.isWritable n = true := Numeral.isWritable_of_le (by omega) hlines
      have hnumber' : Numeral.isWritable n' = true := Numeral.isWritable_of_le (by omega) hlines'
      refine ⟨.inr ⟨_, _, rfl, rfl, ?_⟩, rfl⟩
      rw [Failure.ofDiagnostic, Failure.ofDiagnostic, ← Failure.ofInterruption_unplaced,
        ← Failure.ofInterruption_unplaced,
        Statement.unplaced_ofDiagnostic_malformed hraw' hraw hnumber' hnumber]
    | ok statements' => simp [Statement.commands_reduced hread'] at hcommands
  | ok statements =>
    have hcommands := Statement.commands_reduced hread
    rw [h] at hcommands
    cases hread' : Statement.ofLines file' lines' with
    | error d' =>
      obtain ⟨fault', raw', n', hcommands', -⟩ := Statement.fault_of_ofLinesFrom hread'
      simp [hcommands'] at hcommands
    | ok statements' =>
      have hsame : statements.map (·.command) = statements'.map (·.command) :=
        Except.ok.inj (hcommands.symm.trans (Statement.commands_reduced hread'))
      have hrun := generate_of_alike a.settings (Statement.forall₂_alike hsame
        (Statement.fits_of_ofLines hlines hread) (Statement.fits_of_ofLines hlines' hread'))
      refine ⟨?_, ?_⟩
      · rcases Run.result_of_unplaced_eq hrun with ⟨words, hwords, hwords'⟩ |
          ⟨i, i', hi, hi', hcause⟩
        · refine .inl ⟨words, ?_, ?_⟩
          · simp only [Attempt.result, hwords]
            rfl
          · simp only [Attempt.result, hwords']
            rfl
        · refine .inr ⟨.ofInterruption i, .ofInterruption i', ?_, ?_, ?_⟩
          · simp only [Attempt.result, hi]
            rfl
          · simp only [Attempt.result, hi']
            rfl
          · rw [← Failure.ofInterruption_unplaced, ← Failure.ofInterruption_unplaced, hcause]
      · have hready := congrArg Option.isNone (Run.fault_of_unplaced_eq hrun)
        rw [Option.isNone_map, Option.isNone_map] at hready
        simp only [record, unplaced, Run.kept_of_unplaced_eq hrun, hready]

/-- Sources of numbered lines that agree in what is read of them yield the same words and the same
symbols, or are refused for the same cause. -/
theorem assembleLines_of_reduced_eq (a : Assembler) (file file' : String)
    (h : Source.reduced lines = Source.reduced lines') (hlines : Source.IsNumbered lines)
    (hlines' : Source.IsNumbered lines') :
    (∀ words, (a.assembleLines file lines).2 = .ok words ↔
      (a.assembleLines file' lines').2 = .ok words) ∧
    (∀ failure, (a.assembleLines file lines).2 = .error failure →
      ∃ failure', (a.assembleLines file' lines').2 = .error failure' ∧
        failure'.unplaced = failure.unplaced ∧ failure'.detail = failure.detail) ∧
    (a.assembleLines file lines).1.unplaced = (a.assembleLines file' lines').1.unplaced := by
  obtain ⟨hresults, hsessions⟩ := assembleLines_cases a file file' h hlines hlines'
  refine ⟨?_, ?_, hsessions⟩
  · intro words
    rcases hresults with ⟨words', hok, hok'⟩ | ⟨failure, failure', herror, herror', -⟩
    · rw [hok, hok']
    · simp [herror, herror']
  · intro failure hfailure
    rcases hresults with ⟨words', hok, -⟩ | ⟨failure, failure', herror, herror', hsame⟩
    · simp [hok] at hfailure
    · obtain rfl := Except.error.inj (herror.symm.trans hfailure)
      refine ⟨failure', herror', hsame, ?_⟩
      rw [← failure'.detail_unplaced, hsame, failure.detail_unplaced]

theorem assembleLines_of_reduced_eq_countdown :
    let lines := ["// count down", "(LOOP) again", "  @i  // counter", "", "\tMD=M-1 // step", "@LOOP",
      "D;JGT\t// more"]
    let lines' := ["(LOOP)", "@i", "MD=M-1", "@LOOP", "D;JGT"]
    let a := Assembler.start .default
    (Source.reduced lines = Source.reduced lines' ∧ Source.IsNumbered lines ∧
        Source.IsNumbered lines') ∧
      (∀ words, (a.assembleLines "a.asm" lines).2 = .ok words ↔
        (a.assembleLines "b.asm" lines').2 = .ok words) ∧
      (∀ failure, (a.assembleLines "a.asm" lines).2 = .error failure →
        ∃ failure', (a.assembleLines "b.asm" lines').2 = .error failure' ∧
          failure'.unplaced = failure.unplaced ∧ failure'.detail = failure.detail) ∧
      (a.assembleLines "a.asm" lines).1.unplaced = (a.assembleLines "b.asm" lines').1.unplaced := by
  intro lines lines' a
  have h : Source.reduced lines = Source.reduced lines' := by decide +kernel
  have hlines : Source.IsNumbered lines := Source.isNumbered_of_length_le (by decide)
  have hlines' : Source.IsNumbered lines' := Source.isNumbered_of_length_le (by decide)
  exact ⟨⟨h, hlines, hlines'⟩, assembleLines_of_reduced_eq a "a.asm" "b.asm" h hlines hlines'⟩

end Assembler

end HackToolchain
