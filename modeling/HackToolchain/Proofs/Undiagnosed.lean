import HackToolchain.Proofs.Acceptance
import HackToolchain.Proofs.Source.Numbering
import HackToolchain.Proofs.Text.Layout

/-!
# Failures without a diagnostic

A text that is not assembled is refused with a diagnostic, unless a literal is too long to be read or
a number is too long to be written. A literal is read as an integer before anything is known of its
value, so one with too many digits fails on its own, leading zeros included. The numbers that are
written are those of a message, which tells the place of a fault and shows an address beyond the limit
together with the limit, and the address of a new variable.

The places in a text that can exist are short, so there the failures without a diagnostic are those of
address loads. If variables do not begin below zero, they are of three kinds.
-/

namespace HackToolchain

open Denotation Text

variable {settings : Settings} {program done : List Statement} {file text operand : String}
variable {a : Assembler} {failure : Failure} {s : Statement} {i : Interruption} {d : Diagnostic}

/-- The failures without a diagnostic of the commands behind some statements of a program. -/
inductive Undiagnosed (settings : Settings) (program done : List Statement) :
    Command → Failure → Prop where
  /-- A literal has more digits than are read. -/
  | longLiteral {operand : String} (hlong : isLongLiteral operand = true) :
      Undiagnosed settings program done (.addressLoad operand)
        (.numeral (.tooLong operand.toList.length))
  /-- A new variable has an address with more digits than are written. -/
  | longAddress {operand : String} (hfirst : isFirstUse program done operand = true)
      (hlong : Numeral.isWritable (addressOf settings program operand) = false) :
      Undiagnosed settings program done (.addressLoad operand) (.unwritable .longNumber)
  /-- An address is beyond the limit, and one of the two has more digits than are written. -/
  | longNumber {operand : String} (hshort : isLongLiteral operand = false)
      (hlimit : Word.addressLimit settings.limit < addressOf settings program operand)
      (hlong : ¬ (Numeral.isWritable (addressOf settings program operand) = true ∧
        Numeral.isWritable (Word.addressLimit settings.limit) = true)) :
      Undiagnosed settings program done (.addressLoad operand) (.unwritable .longNumber)

/-- No address lies below zero if the variables do not. -/
theorem addressOf_nonneg (hbase : 0 ≤ settings.variableBase) :
    0 ≤ addressOf settings program operand := by
  by_contra hneg
  have hneg := Int.not_le.1 hneg
  have hlow := base_le_nthFree Machine.reserved settings.variableBase
    ((variableNames program).idxOf operand)
  rw [addressOf_of_isVariable (isVariable_of_addressOf_neg hneg), variableAddress] at hneg
  omega

/-! ### The two kinds of failures without a diagnostic -/

/-- The failures of a text that have no diagnostic: a literal is too long, or a number that is to be
written. -/
def Failure.IsTooLong (failure : Failure) : Prop :=
  (∃ count, failure = .numeral (.tooLong count)) ∨ failure = .unwritable .longNumber

theorem isTooLong_ofDiagnostic
    (hcaret : Diagnostic.caretObstacle? ampleMemory d.location d.sourceLine = none)
    (h : ∀ reported, Failure.ofDiagnostic ampleMemory d ≠ .diagnosed reported) :
    (Failure.ofDiagnostic ampleMemory d).IsTooLong := by
  rw [Failure.ofDiagnostic, Interruption.ofDiagnostic_of_caret hcaret] at h ⊢
  split
  · next hall =>
    rw [if_pos hall] at h
    exact absurd rfl (h d)
  · exact .inr rfl

/-- What an instruction of a line fails with is a diagnostic, or too long. -/
theorem isTooLong_of_fault? (hbase : 0 ≤ settings.variableBase)
    (hs : Statement.commandOf s.source = .ok (some s.command))
    (h : fault? settings program done s = some i)
    (hundiagnosed : ∀ d, Failure.ofInterruption i ≠ .diagnosed d) :
    (Failure.ofInterruption i).IsTooLong := by
  rcases fault?_cases h with ⟨operand, hload, ⟨-, rfl⟩ | ⟨-, hallocation⟩ | ⟨-, -, -, rfl⟩⟩ |
    ⟨fields, f, mnemonic, hcompute, hwritten, -, rfl⟩
  · exact .inl ⟨_, rfl⟩
  · rcases allocationFault?_eq_some_iff.1 hallocation with ⟨hneg, -⟩ | ⟨-, obstacle, hobstacle, rfl⟩
    · exact absurd (addressOf_nonneg hbase) (Int.not_le.2 hneg)
    · rw [Bindings.allocationObstacle?_eq_some_iff] at hobstacle
      rw [hobstacle.2]
      exact .inr rfl
  · have hoperand := Statement.operand_of_commandOf (hload ▸ hs)
    obtain ⟨hcolumn, hlength⟩ := Statement.column_faultPlace_addressLoad hload hoperand
    exact isTooLong_ofDiagnostic (Diagnostic.caretObstacle?_eq_none (by rw [hcolumn]; omega))
      hundiagnosed
  · have hfields := Statement.fields_of_commandOf (hcompute ▸ hs)
    obtain ⟨hcolumn, hlength⟩ := Statement.column_faultPlace_unknown hcompute hfields hwritten
    exact isTooLong_ofDiagnostic (Diagnostic.caretObstacle?_eq_none (by rw [hcolumn]; omega))
      hundiagnosed

/-- Lines are refused with a diagnostic, or something is too long. -/
theorem Refused.isTooLong {lines : List String} (hbase : 0 ≤ settings.variableBase)
    (h : Refused settings file lines failure) (hundiagnosed : ∀ d, failure ≠ .diagnosed d) :
    failure.IsTooLong := by
  cases h with
  | malformed hlines hfront hraw =>
    obtain ⟨fault, hfault, rfl⟩ := Statement.ofLine_eq_error_iff.1 hraw
    have hindex := Statement.index_le_of_commandOf hfault
    refine isTooLong_ofDiagnostic (Diagnostic.caretObstacle?_eq_none ?_) hundiagnosed
    simp only [Location.atColumn]
    omega
  | conflict hstatements hsplit hbefore hs =>
    obtain ⟨name, existing, -, -, -, rfl⟩ := conflict?_eq_some_iff.1 hs
    refine isTooLong_ofDiagnostic (Diagnostic.caretObstacle?_eq_none ?_) hundiagnosed
    rw [Statement.column_of_ofLinesFrom hstatements _ (by simp [hsplit])]
    omega
  | unannouncedLabel hstatements hsplit hbefore hs =>
    obtain ⟨name, -, -, hobstacle⟩ := labelObstacle?_eq_some_iff.1 hs
    rw [(numberObstacle?_eq_some_iff.1 hobstacle).2]
    exact .inr rfl
  | fault hstatements hlabels hsplit hbefore hs =>
    exact isTooLong_of_fault? hbase (Statement.commandOf_source hstatements hsplit) hs hundiagnosed

/-! ### Texts whose size can be written -/

namespace Statement

/-- A diagnostic in a line that can be numbered is reported unless one of its numbers is too long. -/
theorem ofDiagnostic_addressRange {value maximum : Int} (hload : s.command = .addressLoad operand)
    (hoperand : Source.operand s.source = .ok operand)
    (hline : Numeral.isWritable s.location.line = true) :
    Interruption.ofDiagnostic ampleMemory (s.diagnostic (.addressRange value maximum)) =
      if Numeral.isWritable value = true ∧ Numeral.isWritable maximum = true then
        .diagnosed (s.diagnostic (.addressRange value maximum))
      else .unwritable .longNumber := by
  obtain ⟨hcolumn, hlength⟩ :
      (s.faultPlace (.addressRange value maximum)).column = 2 ∧ 2 ≤ s.source.toList.length :=
    column_faultPlace_addressLoad hload hoperand
  have htwo : Numeral.isWritable 2 = true := by decide
  have hnumbers : (s.diagnostic (.addressRange value maximum)).numbers =
      [value, maximum, s.location.line, 2] := by
    rw [← hcolumn]
    rfl
  have hcaret : Diagnostic.caretObstacle? ampleMemory
      (some (s.faultPlace (.addressRange value maximum))) (some s.source) = none := Diagnostic.caretObstacle?_eq_none (by rw [hcolumn]; omega)
  rw [Interruption.ofDiagnostic_of_caret hcaret, hnumbers]
  simp only [List.forall_mem_cons, hline, htwo, List.not_mem_nil, false_implies, implies_true,
    and_true]

theorem ofDiagnostic_unknown {fields : Fields} {f : Field} {mnemonic : String}
    (hcompute : s.command = .compute fields) (hfields : Source.fields s.source = .ok fields)
    (hwritten : fields.written? f = some mnemonic)
    (hline : Numeral.isWritable s.location.line = true)
    (hsource : Numeral.isWritable (s.source.toList.length + 1 : Nat) = true) :
    Interruption.ofDiagnostic ampleMemory (s.diagnostic (f.unknown mnemonic)) =
      .diagnosed (s.diagnostic (f.unknown mnemonic)) := by
  obtain ⟨hcolumn, hlength⟩ := column_faultPlace_unknown hcompute hfields hwritten
  have hstart : Numeral.isWritable (fields.start f + 1 : Nat) = true :=
    Numeral.isWritable_of_le (by omega) hsource
  have hnumbers : (s.diagnostic (f.unknown mnemonic)).numbers =
      [s.location.line, (fields.start f + 1 : Nat)] := by
    rw [Nat.cast_add, Nat.cast_one, ← hcolumn]
    rfl
  have hcaret : Diagnostic.caretObstacle? ampleMemory (some (s.faultPlace (f.unknown mnemonic)))
      (some s.source) = none := Diagnostic.caretObstacle?_eq_none (by rw [hcolumn]; omega)
  rw [Interruption.ofDiagnostic_of_caret hcaret, hnumbers, if_pos]
  simp only [List.forall_mem_cons, hline, hstart, List.not_mem_nil, false_implies, implies_true,
    and_true]

end Statement

/-- A malformed line is reported if the number of the line and its length can be written. -/
theorem ofDiagnostic_malformed {fault : Source.Fault} {raw : String} {number : Nat}
    (hfault : Statement.commandOf (trim raw) = .error fault)
    (hnumber : Numeral.isWritable number = true)
    (hlength : Numeral.isWritable ((trim raw).toList.length + 1 : Nat) = true) :
    let d := fault.diagnostic (some ⟨file, number, 1⟩) (trim raw)
    Failure.ofDiagnostic ampleMemory d = .diagnosed d := by
  intro d
  have hindex := Statement.index_le_of_commandOf hfault
  have hcolumn : Numeral.isWritable (fault.index + 1 : Nat) = true :=
    Numeral.isWritable_of_le (by omega) hlength
  have hcaret : Diagnostic.caretObstacle? ampleMemory d.location d.sourceLine = none :=
    Diagnostic.caretObstacle?_eq_none (by simp only [Location.atColumn]; omega)
  have hnumbers : ∀ n ∈ d.numbers, Numeral.isWritable n = true := by
    rw [Nat.cast_add, Nat.cast_one] at hcolumn
    simp [d, Source.Fault.diagnostic, Diagnostic.numbers, Cause.numbers, Location.numbers,
      Location.atColumn, hnumber, hcolumn]
  rw [Failure.ofDiagnostic, Interruption.ofDiagnostic_of_caret hcaret, if_pos hnumbers]
  rfl

/-- An instruction that fails without a diagnostic, and whose place can be written, does so for one of
three reasons. -/
theorem undiagnosed_of_fault? {i : Interruption} (hbase : 0 ≤ settings.variableBase)
    (hs : Statement.commandOf s.source = .ok (some s.command)) (hplace : s.location.IsWritable)
    (hsource : Numeral.isWritable (s.source.toList.length + 1 : Nat) = true)
    (hi : fault? settings program done s = some i)
    (hundiagnosed : ∀ d, Failure.ofInterruption i ≠ .diagnosed d) :
    Undiagnosed settings program done s.command (.ofInterruption i) := by
  rcases fault?_cases hi with
    ⟨operand, hload, ⟨hlong, rfl⟩ | ⟨hfirst, hallocation⟩ | ⟨hshort, -, hlimit, rfl⟩⟩ |
      ⟨fields, f, mnemonic, hcompute, hwritten, -, rfl⟩
  · exact hload ▸ .longLiteral hlong
  · rw [hload]
    rcases allocationFault?_eq_some_iff.1 hallocation with ⟨hneg, -⟩ | ⟨-, obstacle, hobstacle, rfl⟩
    · exact absurd (addressOf_nonneg hbase) (Int.not_le.2 hneg)
    · obtain ⟨hlong, rfl⟩ := Bindings.allocationObstacle?_eq_some_iff.1 hobstacle
      exact .longAddress hfirst (by simpa [hplace] using hlong)
  · have hoperand := Statement.operand_of_commandOf (hload ▸ hs)
    rw [Statement.ofDiagnostic_addressRange hload hoperand hplace.1] at hundiagnosed ⊢
    split
    · next hshown =>
      rw [if_pos hshown] at hundiagnosed
      exact absurd rfl (hundiagnosed _)
    · next hlong => exact hload ▸ .longNumber hshort hlimit hlong
  · have hfields := Statement.fields_of_commandOf (hcompute ▸ hs)
    rw [Statement.ofDiagnostic_unknown hcompute hfields hwritten hplace.1 hsource] at hundiagnosed
    exact absurd rfl (hundiagnosed _)

/-- For each of the three reasons, an instruction does fail without a diagnostic. -/
theorem exists_fault?_of_undiagnosed (hbase : 0 ≤ settings.variableBase)
    (hs : Statement.commandOf s.source = .ok (some s.command)) (hplace : s.location.IsWritable)
    (h : Undiagnosed settings program done s.command failure) :
    ∃ i, fault? settings program done s = some i ∧ failure = .ofInterruption i ∧
      ∀ d, failure ≠ .diagnosed d := by
  cases hload : s.command with
  | addressLoad operand =>
    rw [hload] at h
    have hfault (i : Interruption) : fault? settings program done s = some i ↔ _ :=
      fault?_eq_some_iff_of_addressLoad hload
    -- The address of a variable that cannot be written is announced before it is encoded.
    have hallocation (hlong : Numeral.isWritable (addressOf settings program operand) = false) :
        allocationFault? (addressOf settings program operand) s.location =
          some (.unwritable .longNumber) :=
      allocationFault?_eq_some_iff.2 (.inr ⟨addressOf_nonneg hbase, .longNumber,
        Bindings.allocationObstacle?_eq_some_iff.2 ⟨by simp [hlong], rfl⟩, rfl⟩)
    cases h with
    | longLiteral hlong => exact ⟨_, (hfault _).2 (.inl ⟨hlong, rfl⟩), rfl, by simp⟩
    | longAddress hfirst hlong =>
      exact ⟨_, (hfault _).2 (.inr (.inl ⟨hfirst, hallocation hlong⟩)), rfl, by simp⟩
    | longNumber hshort hlimit hlong =>
      have hoperand := Statement.operand_of_commandOf (hload ▸ hs)
      refine ⟨.unwritable .longNumber, (hfault _).2 ?_, rfl, by simp⟩
      rw [Statement.ofDiagnostic_addressRange hload hoperand hplace.1, if_neg hlong]
      by_cases hfirst : isFirstUse program done operand = true ∧
          Numeral.isWritable (addressOf settings program operand) = false
      · exact .inr (.inl ⟨hfirst.1, hallocation hfirst.2⟩)
      · refine .inr (.inr ⟨hshort, fun hused => ?_, hlimit, rfl⟩)
        have hwritable : Numeral.isWritable (addressOf settings program operand) = true := by
          simpa [hused] using hfirst
        exact allocationFault?_eq_none_iff.2 ⟨addressOf_nonneg hbase,
          Bindings.allocationObstacle?_eq_none_iff.2 ⟨hwritable, hplace⟩⟩
  | compute fields => rw [hload] at h; cases h
  | label name => rw [hload] at h; cases h
  | remark => rw [hload] at h; cases h

/-- A text whose size can be written is refused without a diagnostic exactly if it is well-formed and
consistent and the first instruction that fails is of one of the three kinds. -/
theorem refused_undiagnosed_iff (hbase : 0 ≤ settings.variableBase)
    (hsize : Numeral.isWritable (text.toList.length + 1 : Nat) = true) :
    (Refused settings file (lines text) failure ∧ ∀ d, failure ≠ .diagnosed d) ↔
      ∃ statements before s after, Statement.ofLines file (lines text) = .ok statements ∧
        Consistent statements ∧ statements = before ++ s :: after ∧
        Faultless settings statements before ∧
        Undiagnosed settings statements before s.command failure := by
  have hlength := length_lines_le text
  have hnumbered : Source.IsNumbered (lines text) := Numeral.isWritable_of_le (by omega) hsize
  -- No place in the text is beyond its size.
  have hraw {raw : String} (hraw : raw ∈ lines text) :
      Numeral.isWritable ((trim raw).toList.length + 1 : Nat) = true :=
    Numeral.isWritable_of_le
      (Nat.succ_le_succ ((length_trim_le raw).trans (length_le_of_mem_lines hraw))) hsize
  have hplace {statements before after : List Statement} {s : Statement}
      (hstatements : Statement.ofLines file (lines text) = .ok statements)
      (hsplit : statements = before ++ s :: after) : s.location.IsWritable :=
    (Statement.numbered_of_ofLines hnumbered hstatements).place s (by simp [hsplit])
  have hsource {statements before after : List Statement} {s : Statement}
      (hstatements : Statement.ofLines file (lines text) = .ok statements)
      (hsplit : statements = before ++ s :: after) :
      Numeral.isWritable (s.source.toList.length + 1 : Nat) = true := by
    obtain ⟨front, raw, back, hlines, -, hline⟩ :=
      Statement.exists_line_of_ofLinesFrom (hsplit ▸ hstatements)
    rw [(Statement.ofLine_eq_some_iff.1 hline).2.2]
    exact hraw (by simp [hlines])
  constructor
  · rintro ⟨hrefused, hundiagnosed⟩
    cases hrefused with
    | @malformed front back raw d hlines hfront hfault =>
      obtain ⟨fault, hcommand, rfl⟩ := Statement.ofLine_eq_error_iff.1 hfault
      have hcount : 1 + front.length ≤ (lines text).length := by
        rw [hlines, List.length_append, List.length_cons]
        omega
      exact absurd (ofDiagnostic_malformed hcommand (Numeral.isWritable_of_le hcount hnumbered)
        (hraw (by simp [hlines]))) (hundiagnosed _)
    | @conflict statements before after s d hstatements hsplit hbefore hs =>
      have hplaces := Statement.numbered_of_ofLines hnumbered (hsplit ▸ hstatements)
      have hcolumn := Statement.column_of_ofLinesFrom hstatements s (by simp [hsplit])
      have hreported := hplaces.ofDiagnostic_of_conflict? (by rw [hcolumn]; omega) hs
      exact absurd (congrArg Failure.ofInterruption hreported) (hundiagnosed d)
    | unannouncedLabel hstatements hsplit hbefore hs =>
      obtain ⟨name, -, -, hobstacle⟩ := labelObstacle?_eq_some_iff.1 hs
      have hplaces := Statement.numbered_of_ofLines hnumbered (hsplit ▸ hstatements)
      simp [numberObstacle?, hplaces.of_append.count] at hobstacle
    | fault hstatements hlabels hsplit hbefore hs =>
      have hcommand := Statement.commandOf_source hstatements hsplit
      exact ⟨_, _, _, _, hstatements, hlabels.1, hsplit, hbefore,
        undiagnosed_of_fault? hbase hcommand (hplace hstatements hsplit)
          (hsource hstatements hsplit) hs hundiagnosed⟩
  · rintro ⟨statements, before, s, after, hstatements, hconsistent, hsplit, hbefore, h⟩
    have hcommand := Statement.commandOf_source hstatements hsplit
    obtain ⟨i, hs, rfl, hundiagnosed⟩ :=
      exists_fault?_of_undiagnosed hbase hcommand (hplace hstatements hsplit) h
    have hannounced := (Statement.numbered_of_ofLines hnumbered hstatements).announced
    exact ⟨.fault hstatements ⟨hconsistent, hannounced⟩ hsplit hbefore hs, hundiagnosed⟩

namespace Assembler

/-- A text that is not assembled is refused with a diagnostic, unless a literal or a number is too
long. If the size of the text can be written, it fails without a diagnostic exactly if it is
well-formed and consistent and the first instruction that fails is an address load of one of three
kinds. -/
theorem assembleText_undiagnosed_iff (hbase : 0 ≤ a.settings.variableBase) :
    (∀ failure, (a.assembleText file text).2 = .error failure → (∀ d, failure ≠ .diagnosed d) →
      failure.IsTooLong) ∧
    (Numeral.isWritable (text.toList.length + 1 : Nat) = true → ∀ failure,
      ((a.assembleText file text).2 = .error failure ∧ ∀ d, failure ≠ .diagnosed d) ↔
        ∃ statements before s after, Statement.ofLines file (lines text) = .ok statements ∧
          Consistent statements ∧ statements = before ++ s :: after ∧
          Faultless a.settings statements before ∧
          Undiagnosed a.settings statements before s.command failure) := by
  rw [assembleText]
  constructor
  · intro failure hfailure hundiagnosed
    exact (assembleLines_eq_error_iff.1 hfailure).isTooLong hbase hundiagnosed
  · intro hsize failure
    rw [assembleLines_eq_error_iff]
    exact refused_undiagnosed_iff hbase hsize

/-- A text of one literal with too many digits fails without a diagnostic, whatever its value. -/
theorem assembleText_of_longLiteral (a : Assembler) (file : String)
    (hliteral : Numeral.isLiteral operand = true)
    (hlong : Numeral.digitLimit < operand.toList.length) :
    (a.assembleText file ("@" ++ operand)).2 =
      .error (.numeral (.tooLong operand.toList.length)) := by
  obtain ⟨hsolid, hne⟩ := isSolid_of_isLiteral hliteral
  have hline : IsSolid ("@" ++ operand).toList := by
    rw [String.toList_append, isSolid_append]
    exact ⟨isSolid_cons.2 ⟨rfl, isSolid_nil⟩, hsolid⟩
  have hstatements : Statement.ofLines file (lines ("@" ++ operand)) =
      .ok [⟨⟨file, 1, 1⟩, "@" ++ operand, .addressLoad operand⟩] := by
    rw [lines_of_isSolid hline (by simp), Statement.ofLines, Statement.ofLinesFrom,
      Statement.ofLine_addressLoad file 1 hsolid hne]
    rfl
  have hlabels : Consistent [⟨⟨file, 1, 1⟩, "@" ++ operand, .addressLoad operand⟩] ∧ _ :=
    firstFault?_labelFault?_eq_none_iff.1 rfl
  have hlongLiteral : isLongLiteral operand = true := by simp [isLongLiteral, hliteral, hlong]
  rw [assembleText, assembleLines_eq_error_iff]
  have hrefused : Refused a.settings file (lines ("@" ++ operand))
      (.ofInterruption (.numeral (.tooLong operand.toList.length))) := by
    refine .fault hstatements hlabels (List.nil_append _).symm faultless_nil ?_
    exact (fault?_eq_some_iff_of_addressLoad rfl).2 (.inl ⟨hlongLiteral, rfl⟩)
  exact hrefused

/-- The literal one behind `n` zeros. -/
def paddedOne (n : Nat) : String :=
  String.ofList (List.replicate n '0' ++ ['1'])

theorem isLiteral_paddedOne (n : Nat) : Numeral.isLiteral (paddedOne n) = true := by
  have hdigits : ∀ c ∈ List.replicate n '0' ++ ['1'], isAsciiDigit c = true := by
    intro c hc
    rcases List.mem_append.1 hc with hzero | hone
    · rw [List.eq_of_mem_replicate hzero]
      rfl
    · rw [List.mem_singleton.1 hone]
      rfl
  rw [paddedOne, Numeral.isLiteral, String.toList_ofList, List.all_eq_true.2 hdigits]
  simp

theorem length_paddedOne (n : Nat) : (paddedOne n).toList.length = n + 1 := by
  simp [paddedOne]

theorem ofDigitChars_paddedOne (n : Nat) : Nat.ofDigitChars 10 (paddedOne n).toList 0 = 1 := by
  rw [paddedOne, String.toList_ofList, Nat.ofDigitChars_append, Nat.ofDigitChars_replicate_zero,
    Nat.mul_zero]
  rfl

/-- One zero more than a literal may have digits in front of it. -/
theorem assembleText_paddedOne (a : Assembler) (file : String) :
    (a.assembleText file ("@" ++ paddedOne Numeral.digitLimit)).2 =
      .error (.numeral (.tooLong (Numeral.digitLimit + 1))) := by
  have hlong : Numeral.digitLimit < (paddedOne Numeral.digitLimit).toList.length := by
    rw [length_paddedOne]
    exact Nat.lt_succ_self _
  rw [assembleText_of_longLiteral a file (isLiteral_paddedOne _) hlong, length_paddedOne]

theorem assembleText_undiagnosed_paddedOne : 0 ≤ Settings.default.variableBase ∧
    Failure.IsTooLong (.numeral (.tooLong 4301)) ∧
    ∃ statements before s after,
      Statement.ofLines "a.asm" (lines ("@" ++ paddedOne 4300)) = .ok statements ∧
        Consistent statements ∧ statements = before ++ s :: after ∧
        Faultless .default statements before ∧
        Undiagnosed .default statements before s.command (.numeral (.tooLong 4301)) := by
  have hbase : 0 ≤ Settings.default.variableBase := by decide
  have hfails := assembleText_paddedOne (.start .default) "a.asm"
  have hsize : Numeral.isWritable (("@" ++ paddedOne 4300).toList.length + 1 : Nat) = true := by
    rw [String.toList_append, List.length_append, length_paddedOne]
    decide
  obtain ⟨htooLong, hexact⟩ :=
    @assembleText_undiagnosed_iff "a.asm" ("@" ++ paddedOne 4300) (.start .default) hbase
  exact ⟨hbase, htooLong _ hfails (by simp), (hexact hsize _).1 ⟨hfails, by simp⟩⟩

/-- The literal stands for one, but no words come of it, and no diagnostic either. -/
theorem assemble_paddedOne : Nat.ofDigitChars 10 (paddedOne 4300).toList 0 = 1 ∧
    ¬ ((∃ words, assemble "a.asm" ("@" ++ paddedOne 4300) = .ok words) ∨
      ∃ d, assemble "a.asm" ("@" ++ paddedOne 4300) = .error (.diagnosed d)) := by
  have hfails : assemble "a.asm" ("@" ++ paddedOne 4300) = .error (.numeral (.tooLong 4301)) :=
    assembleText_paddedOne (.start .default) "a.asm"
  refine ⟨ofDigitChars_paddedOne 4300, ?_⟩
  rw [hfails]
  simp

end Assembler

end HackToolchain
