import HackToolchain.Proofs.Source.Numbering

/-!
# Runs that end early

A run ends early at the first statement that fails. If no declaration fails, this is a statement of
the second pass: the statements before it are encoded as in a complete run, and nothing behind it is
looked at. All instructions are counted by then.

The first pass over statements that were read from a source is only ended by a diagnostic, because
the number of the line can be written and the caret stands within it.
-/

namespace HackToolchain

open Denotation Text

variable {settings : Settings} {program done rest statements : List Statement} {s : Statement}
variable {operand : String} {b b' : Bindings} {i : Interruption}

/-! ### The second pass -/

namespace Bindings

/-- An operand that is not resolved is a literal that is too long, a new variable without an address,
or one that is bound and not announced. -/
theorem Matches.resolve_error (hb : Matches settings program done b)
    (hprogram : program = done ++ s :: rest) (hs : s.command = .addressLoad operand)
    (h : b.resolve s.location s.source operand = (b', .error i)) :
    b'.symbols = usedTable settings program done ∨
      b'.symbols = usedTable settings program (done ++ [s]) := by
  cases hliteral : Text.Numeral.isLiteral operand with
  | true =>
    rw [resolve_of_isLiteral hliteral] at h
    exact .inl ((Prod.mk.inj h).1 ▸ hb.symbols_eq)
  | false =>
    cases hbound : b.symbols.contains operand with
    | true =>
      rw [resolve_of_contains hliteral hbound] at h
      exact .inl ((Prod.mk.inj h).1 ▸ hb.symbols_eq)
    | false =>
      have hnext := (hb.allocate hprogram hs hliteral hbound).symbols_eq
      rw [resolve_of_not_contains hliteral hbound] at h
      split at h
      · exact .inl ((Prod.mk.inj h).1 ▸ hb.symbols_eq)
      · exact .inr ((Prod.mk.inj h).1 ▸ hnext)

/-- A statement that fails is an instruction, and binds at most its own operand. -/
theorem Matches.encode_error (hb : Matches settings program done b)
    (hprogram : program = done ++ s :: rest) (h : b.encode settings s = (b', .error i)) :
    s.command.isInstruction = true ∧
      (b'.symbols = usedTable settings program done ∨
        b'.symbols = usedTable settings program (done ++ [s])) := by
  rcases encode_eq_error_cases h with ⟨operand, hs, hresolve⟩ |
    ⟨operand, address, cause, hs, hresolve, -⟩ | ⟨fields, cause, hs, rfl, -⟩
  · exact ⟨by rw [hs]; rfl, hb.resolve_error hprogram hs hresolve⟩
  · exact ⟨by rw [hs]; rfl, .inr (hb.resolve hprogram hs hresolve).1.symbols_eq⟩
  · exact ⟨by rw [hs]; rfl, .inl hb.symbols_eq⟩

/-- A second pass that ends early has listed the words of the statements before the one that fails,
and has used no variables but theirs and at most one more. -/
theorem Matches.emit_error {address : Nat} (hb : Matches settings program done b)
    (hprogram : program = done ++ rest)
    (h : (HackToolchain.emit settings b address rest).fault = some i) :
    ∃ before s after, rest = before ++ s :: after ∧ s.command.isInstruction = true ∧
      before.filterMap (word? settings program) =
        ((HackToolchain.emit settings b address rest).listing.filterMap (·.word)).map Except.ok ∧
      ((HackToolchain.emit settings b address rest).bindings.symbols =
          usedTable settings program (done ++ before) ∨
        (HackToolchain.emit settings b address rest).bindings.symbols =
          usedTable settings program (done ++ before ++ [s])) := by
  -- As in a complete pass, the state matches what is done until a statement fails.
  induction rest generalizing done b address with
  | nil => simp [HackToolchain.emit] at h
  | cons s rest ih =>
    rw [HackToolchain.emit] at h ⊢
    cases hencode : b.encode settings s with
    | mk bound result =>
      cases result with
      | error fault =>
        obtain ⟨hinstruction, hsymbols⟩ := hb.encode_error hprogram hencode
        exact ⟨[], s, rest, rfl, hinstruction, rfl, by simpa using hsymbols⟩
      | ok word =>
        simp only [hencode] at h ⊢
        obtain ⟨hmatches, hword⟩ := hb.encode hprogram hencode
        obtain ⟨before, t, after, hrest, hinstruction, hwords, hsymbols⟩ :=
          ih hmatches (by simpa using hprogram) h
        refine ⟨s :: before, t, after, by rw [hrest]; rfl, hinstruction, ?_, by simpa using hsymbols⟩
        rw [List.filterMap_cons, List.filterMap_cons, hword, hwords]
        cases word <;> rfl

end Bindings

/-! ### Runs -/

/-- A program that breaks off at an instruction of the statements: all labels are bound and all
instructions are counted, but of the words there are only those before the instruction. The operand
of the instruction may have become a variable. -/
def Program.BreaksOff (p : Program) (settings : Settings) (statements : List Statement) : Prop :=
  ∃ before s after, statements = before ++ s :: after ∧ s.command.isInstruction = true ∧
    before.filterMap (word? settings statements) = p.words.map Except.ok ∧
    p.instructionCount = Denotation.instructionCount statements ∧
    (p.symbols = usedTable settings statements before ∨
      p.symbols = usedTable settings statements (before ++ [s]))

/-- The instruction at which a program breaks off is counted. -/
theorem Program.BreaksOff.instructionCount_ne_zero {p : Program}
    (h : p.BreaksOff settings statements) : p.instructionCount ≠ 0 := by
  obtain ⟨before, s, after, rfl, hs, -, hcount, -⟩ := h
  simp [hcount, Denotation.instructionCount, hs]

/-- A first pass over the statements of numbered lines is only ended by a diagnostic. -/
theorem bindLabels_of_numbered {file : String} {raws : List String}
    (hnumbered : Source.IsNumbered raws) (hlines : Statement.ofLines file raws = .ok statements)
    (h : (bindLabels .initial 0 statements).fault = some i) : ∃ d, i = .diagnosed d := by
  rw [fault_bindLabels_initial, firstFault?_eq_some_iff] at h
  obtain ⟨before, s, after, rfl, -, hs⟩ := h
  have hcolumn : s.location.column ≤ s.source.toList.length + 1 := by
    rw [Statement.column_of_ofLinesFrom hlines s (by simp)]
    omega
  obtain ⟨d, -, rfl⟩ := ((Statement.numbered_of_ofLines hnumbered hlines).labelFault?_eq_some_iff
    hcolumn).1 hs
  exact ⟨d, rfl⟩

/-- A run of statements from numbered lines that is ended without a diagnostic breaks off. -/
theorem generate_of_interrupted {file : String} {raws : List String}
    (hnumbered : Source.IsNumbered raws) (hlines : Statement.ofLines file raws = .ok statements)
    (h : (generate settings statements).fault = some i) (hi : ∀ d, i ≠ .diagnosed d) :
    (generate settings statements).program.BreaksOff settings statements := by
  have hlabels : (bindLabels .initial 0 statements).fault = none := by
    cases hfault : (bindLabels .initial 0 statements).fault with
    | none => rfl
    | some fault =>
      obtain ⟨d, rfl⟩ := bindLabels_of_numbered hnumbered hlines hfault
      simp only [generate, hfault, Option.some.injEq] at h
      exact absurd h.symm (hi d)
  simp only [generate, bindLabels_initial hlabels] at h
  simp only [Program.BreaksOff, generate, bindLabels_initial hlabels]
  obtain ⟨before, s, after, hsplit, hinstruction, hwords, hsymbols⟩ :=
    (Bindings.matches_start settings statements).emit_error rfl h
  exact ⟨before, s, after, hsplit, hinstruction, hwords, trivial, by simpa using hsymbols⟩

/-- Loads a variable and then a literal. -/
def variableThenLiteral (literal : String) : List Statement :=
  [⟨⟨"a.asm", 1, 1⟩, "@x", .addressLoad "x"⟩, ⟨⟨"a.asm", 2, 1⟩, "@" ++ literal, .addressLoad literal⟩]

/-- A literal with one digit too many. -/
def longLiteral : String :=
  String.ofList (List.replicate (Numeral.digitLimit + 1) '1')

theorem isLiteral_longLiteral : Numeral.isLiteral longLiteral = true := by
  simp [longLiteral, Numeral.isLiteral, isAsciiDigit]

theorem lt_length_longLiteral : Numeral.digitLimit < longLiteral.toList.length := by
  simp [longLiteral]

/-- The variable is kept if the literal is too long, though no word is listed for the literal. -/
theorem generate_variableThenLiteral {literal : String} {word : Word}
    (hliteral : Numeral.isLiteral literal = true)
    (hlong : Numeral.digitLimit < literal.toList.length)
    (hfirst : Bindings.encode settings ⟨.initial, .ofBase settings.variableBase Machine.reserved⟩
      ⟨⟨"a.asm", 1, 1⟩, "@x", .addressLoad "x"⟩ = (b, .ok (some word))) :
    generate settings (variableThenLiteral literal) =
      ⟨⟨b.symbols, b.allocator, [⟨⟨"a.asm", 1, 1⟩, "@x", 0, some word⟩], 2⟩, true,
        some (.numeral (.tooLong literal.toList.length))⟩ := by
  have hlabels : bindLabels .initial 0 (variableThenLiteral literal) = ⟨.initial, 2, none⟩ := rfl
  have hlast : b.encode settings ⟨⟨"a.asm", 2, 1⟩, "@" ++ literal, .addressLoad literal⟩ =
      (b, .error (.numeral (.tooLong literal.toList.length))) := by
    simp only [Bindings.encode, Bindings.resolve_of_isLiteral hliteral, Numeral.readLiteral,
      if_pos hlong]
  simp only [generate, hlabels]
  rw [variableThenLiteral, emit, hfirst]
  simp only [emit, hlast]
  rfl

end HackToolchain
