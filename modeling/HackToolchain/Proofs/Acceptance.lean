import HackToolchain.Assembler
import HackToolchain.Proofs.Program.Faults
import HackToolchain.Proofs.Source.Numbering
import HackToolchain.Proofs.Source.Shape

/-!
# Accepted sources

Some lines are assembled if every one of them has the shape of its kind, if no declaration fails, and
if no instruction does. Each of the three is asked of all lines before the next one is: what is
reported is the first malformed line, or else the first declaration that fails, or else the first
instruction, wherever in the source they stand.

A declaration that is in conflict with no symbol fails nevertheless if its label cannot be announced,
and so does the first use of a variable, however high its address may be by the settings. The report
of a fault is itself a text with numbers in it, so another failure stands in its place if one of them
cannot be written.
-/

namespace HackToolchain

open Denotation Text

variable {settings : Settings} {file : String} {lines : List String} {a : Assembler}
variable {statements : List Statement} {d : Diagnostic} {failure : Failure} {base : Int}

/-- The failure with which some lines are refused. -/
inductive Refused (settings : Settings) (file : String) (lines : List String) : Failure → Prop where
  /-- A line is malformed, and no line before it is. -/
  | malformed {front back : List String} {raw : String} {d : Diagnostic}
      (hlines : lines = front ++ raw :: back)
      (hfront : ∀ r ∈ front, ¬ Source.IsMalformed (Text.trim r))
      (hraw : Statement.ofLine file (1 + front.length) raw = .error d) :
      Refused settings file lines (.ofDiagnostic ampleMemory d)
  /-- No line is malformed. A declaration conflicts, and no declaration before it fails. -/
  | conflict {statements before after : List Statement} {s : Statement} {d : Diagnostic}
      (hstatements : Statement.ofLines file lines = .ok statements)
      (hsplit : statements = before ++ s :: after)
      (hbefore : Consistent before ∧ Announced before) (hs : conflict? before s = some d) :
      Refused settings file lines (.ofDiagnostic ampleMemory d)
  /-- No line is malformed. A new label cannot be announced, and no declaration before it fails. -/
  | unannouncedLabel {statements before after : List Statement} {s : Statement} {obstacle : Obstacle}
      (hstatements : Statement.ofLines file lines = .ok statements)
      (hsplit : statements = before ++ s :: after)
      (hbefore : Consistent before ∧ Announced before)
      (hs : labelObstacle? before s = some obstacle) :
      Refused settings file lines (.unwritable obstacle)
  /-- No line is malformed and no declaration fails. An instruction fails, and no instruction before
  it does. -/
  | fault {statements before after : List Statement} {s : Statement} {i : Interruption}
      (hstatements : Statement.ofLines file lines = .ok statements)
      (hlabels : Consistent statements ∧ Announced statements)
      (hsplit : statements = before ++ s :: after)
      (hbefore : Faultless settings statements before)
      (hs : fault? settings statements before s = some i) :
      Refused settings file lines (.ofInterruption i)

/-- A failure that is diagnosed has the diagnostic that was to be reported. -/
theorem Failure.eq_of_ofDiagnostic {memory : Int} {reported : Diagnostic}
    (h : Failure.ofDiagnostic memory d = .diagnosed reported) : d = reported := by
  rw [Failure.ofDiagnostic] at h
  cases hreported : Interruption.ofDiagnostic memory d with
  | diagnosed other =>
    rw [hreported] at h
    rw [Interruption.eq_of_ofDiagnostic hreported]
    exact Failure.diagnosed.inj h
  | numeral fault => simp [hreported, ofInterruption] at h
  | negativeAddress address => simp [hreported, ofInterruption] at h
  | unwritable obstacle => simp [hreported, ofInterruption] at h

namespace Assembler

theorem assembleLines_of_error (h : Statement.ofLines file lines = .error d) :
    (a.assembleLines file lines).2 = .error (.ofDiagnostic ampleMemory d) := by
  simp only [assembleLines, Attempt.ofSource, h]
  rfl

theorem assembleLines_of_ok (h : Statement.ofLines file lines = .ok statements) :
    (a.assembleLines file lines).2 =
      match (generate a.settings statements).fault with
      | none => .ok (generate a.settings statements).program.words
      | some i => .error (.ofInterruption i) := by
  simp only [assembleLines, Attempt.ofSource, h, Attempt.result, Run.result]
  cases (generate a.settings statements).fault <;> rfl

/-- Statements are refused for a declaration or for an instruction. -/
theorem refused_of_fault {i : Interruption}
    (hstatements : Statement.ofLines file lines = .ok statements)
    (h : (generate settings statements).fault = some i) :
    Refused settings file lines (.ofInterruption i) := by
  rcases generate_fault_eq_some_iff.1 h with ⟨before, s, after, hsplit, hbefore, hs⟩ |
    ⟨hlabels, before, s, after, hsplit, hbefore, hs⟩
  · rcases labelFault?_eq_some_iff.1 hs with ⟨d, hd, rfl⟩ | ⟨obstacle, hobstacle, rfl⟩
    · exact .conflict hstatements hsplit hbefore hd
    · exact .unannouncedLabel hstatements hsplit hbefore hobstacle
  · exact .fault hstatements hlabels hsplit hbefore hs

/-- Lines are refused with one of four failures. -/
theorem assembleLines_eq_error_iff : (a.assembleLines file lines).2 = .error failure ↔
    Refused a.settings file lines failure := by
  cases hstatements : Statement.ofLines file lines with
  | error d =>
    rw [assembleLines_of_error hstatements]
    obtain ⟨front, raw, back, hlines, hfront, hraw⟩ :=
      Statement.ofLinesFrom_eq_error_iff.1 hstatements
    constructor
    · intro h
      rw [← Except.error.inj h]
      exact .malformed hlines hfront hraw
    · intro h
      cases h with
      | malformed hlines hfront hraw =>
        have hother := Statement.ofLinesFrom_eq_error_iff.2 ⟨_, _, _, hlines, hfront, hraw⟩
        rw [Except.error.inj (hstatements.symm.trans hother)]
      | conflict hother => simp [hother] at hstatements
      | unannouncedLabel hother => simp [hother] at hstatements
      | fault hother => simp [hother] at hstatements
  | ok statements =>
    rw [assembleLines_of_ok hstatements]
    constructor
    · intro h
      cases hfault : (generate a.settings statements).fault with
      | none => simp [hfault] at h
      | some i =>
        rw [hfault] at h
        rw [← Except.error.inj h]
        exact refused_of_fault hstatements hfault
    · intro h
      cases h with
      | malformed hlines hfront hraw =>
        have hother := Statement.ofLinesFrom_eq_error_iff.2 ⟨_, _, _, hlines, hfront, hraw⟩
        rw [Statement.ofLines, hother] at hstatements
        simp at hstatements
      | conflict hother hsplit hbefore hs =>
        obtain rfl := Except.ok.inj (hstatements.symm.trans hother)
        have hfault := labelFault?_eq_some_iff.2 (.inl ⟨_, hs, rfl⟩)
        rw [generate_fault_eq_some_iff.2 (.inl ⟨_, _, _, hsplit, hbefore, hfault⟩)]
        rfl
      | unannouncedLabel hother hsplit hbefore hs =>
        obtain rfl := Except.ok.inj (hstatements.symm.trans hother)
        have hfault := labelFault?_eq_some_iff.2 (.inr ⟨_, hs, rfl⟩)
        rw [generate_fault_eq_some_iff.2 (.inl ⟨_, _, _, hsplit, hbefore, hfault⟩)]
        rfl
      | fault hother hlabels hsplit hbefore hs =>
        obtain rfl := Except.ok.inj (hstatements.symm.trans hother)
        rw [generate_fault_eq_some_iff.2 (.inr ⟨hlabels, _, _, _, hsplit, hbefore, hs⟩)]

/-- Lines are assembled exactly if none is malformed, no declaration names a symbol that is bound to
another address before, all new labels can be announced, and no instruction fails. Otherwise they are
refused for the first malformed line, or else for the first declaration that fails, or else for the
first instruction that does. -/
theorem assembleLines_verdict (a : Assembler) (file : String) (lines : List String) :
    ((∃ words, (a.assembleLines file lines).2 = .ok words) ↔
      (∀ raw ∈ lines, ¬ Source.IsMalformed (Text.trim raw)) ∧
        ∃ statements, Statement.ofLines file lines = .ok statements ∧
          (Consistent statements ∧ Announced statements) ∧
          Faultless a.settings statements statements) ∧
    ∀ failure, (a.assembleLines file lines).2 = .error failure ↔
      Refused a.settings file lines failure := by
  refine ⟨?_, fun failure => assembleLines_eq_error_iff⟩
  rw [← Statement.exists_ofLinesFrom_iff file 1]
  constructor
  · rintro ⟨words, hwords⟩
    cases hstatements : Statement.ofLines file lines with
    | error d => simp [assembleLines_of_error hstatements] at hwords
    | ok statements =>
      rw [assembleLines_of_ok hstatements] at hwords
      cases hfault : (generate a.settings statements).fault with
      | some i => simp [hfault] at hwords
      | none => exact ⟨⟨_, hstatements⟩, _, rfl, generate_fault_eq_none_iff.1 hfault⟩
  · rintro ⟨-, statements, hstatements, hgood⟩
    rw [assembleLines_of_ok hstatements, generate_fault_eq_none_iff.2 hgood]
    exact ⟨_, rfl⟩

end Assembler

/-! ### Addresses without an announcement -/

/-- The first use of a variable is refused if its address has too many digits. -/
theorem Refused.of_longAddress {before after : List Statement} {s : Statement} {operand : String}
    (hstatements : Statement.ofLines file lines = .ok statements)
    (hlabels : Consistent statements ∧ Announced statements)
    (hsplit : statements = before ++ s :: after) (hbefore : Faultless settings statements before)
    (hload : s.command = .addressLoad operand)
    (hfirst : isFirstUse statements before operand = true)
    (hnonneg : 0 ≤ addressOf settings statements operand)
    (hlong : ¬ Numeral.isWritable (addressOf settings statements operand) = true) :
    Refused settings file lines (.unwritable .longNumber) := by
  have hannounced : Bindings.allocationObstacle? (addressOf settings statements operand) s.location =
      some .longNumber :=
    Bindings.allocationObstacle?_eq_some_iff.2 ⟨fun h => hlong h.1, rfl⟩
  have hallocation := allocationFault?_eq_some_iff.2 (.inr ⟨hnonneg, _, hannounced, rfl⟩)
  exact .fault hstatements hlabels hsplit hbefore
    ((fault?_eq_some_iff_of_addressLoad hload).2 (.inr (.inl ⟨hfirst, hallocation⟩)))

namespace Assembler

/-- Settings whose variables begin at the limit for addresses. -/
def settingsAt (top : Int) : Settings :=
  { Settings.default with variableBase := top, maxAddress := top }

/-- The address load of a name, in a line of its own. -/
def loadOf (name : String) (line : Nat) : Statement :=
  ⟨⟨"a.asm", line, 1⟩, "@" ++ name, .addressLoad name⟩

variable {top : Int}

/-- The first variable is placed where variables begin. -/
theorem addressOf_first (hfree : top ∉ Machine.reserved) :
    addressOf (settingsAt top) [loadOf "x" 1] "x" = top ∧
      addressOf (settingsAt top) [loadOf "x" 1, loadOf "y" 2] "x" = top := by
  have hzero : nthFree Machine.reserved top 0 = top :=
    nthFree_eq_iff.2 ⟨Int.le_refl top, hfree, by rw [Int.sub_self]; rfl⟩
  exact ⟨hzero, hzero⟩

/-- The second variable is placed behind the first one. -/
theorem addressOf_second (hfree : top ∉ Machine.reserved) (hnext : top + 1 ∉ Machine.reserved) :
    addressOf (settingsAt top) [loadOf "x" 1, loadOf "y" 2] "y" = top + 1 := by
  have hwindow : (freeAddresses Machine.reserved top (top + 1 - top).toNat).length = 1 := by
    rw [add_sub_cancel_left]
    simp [freeAddresses, addressWindow, hfree]
  have hone : nthFree Machine.reserved top 1 = top + 1 :=
    nthFree_eq_iff.2 ⟨Int.le_add_one (Int.le_refl top), hnext, hwindow⟩
  exact hone

/-- Reserved addresses are short. -/
theorem notMem_reserved (h : 24576 < top) : top ∉ Machine.reserved := by
  simp only [Machine.reserved, Machine.screen, Machine.keyboard, List.mem_cons, List.not_mem_nil,
    or_false, not_or]
  omega

/-- The variable is placed at the limit, but its address is too long to be announced. -/
theorem assembleLines_loadX (htop : 24576 < top) (hlong : ¬ Numeral.isWritable top = true) :
    ((start (settingsAt top)).assembleLines "a.asm" ["@x"]).2 =
      .error (.unwritable .longNumber) := by
  obtain ⟨haddress, -⟩ := addressOf_first (notMem_reserved htop)
  have hstatements : Statement.ofLines "a.asm" ["@x"] = .ok [loadOf "x" 1] := by decide
  have hlabels : Consistent [loadOf "x" 1] ∧ Announced [loadOf "x" 1] :=
    firstFault?_labelFault?_eq_none_iff.1 rfl
  have hrefused : Refused (settingsAt top) "a.asm" ["@x"] (.unwritable .longNumber) :=
    .of_longAddress hstatements hlabels (List.nil_append _).symm faultless_nil rfl rfl
      (by rw [haddress]; omega) (by rwa [haddress])
  exact assembleLines_eq_error_iff.2 hrefused

/-- The second variable would be placed above the limit, but its address is too long to be told. -/
theorem assembleLines_loadXY (htop : 24576 < top) (hshort : Numeral.isWritable top = true)
    (hlong : ¬ Numeral.isWritable (top + 1) = true) :
    Faultless (settingsAt top) [loadOf "x" 1, loadOf "y" 2] [loadOf "x" 1] ∧
    ((start (settingsAt top)).assembleLines "a.asm" ["@x", "@y"]).2 =
      .error (.unwritable .longNumber) := by
  have hfree := notMem_reserved htop
  have hnext : top + 1 ∉ Machine.reserved := notMem_reserved (by omega)
  obtain ⟨-, hfirst⟩ := addressOf_first hfree
  have hsecond := addressOf_second hfree hnext
  have hstatements : Statement.ofLines "a.asm" ["@x", "@y"] = .ok [loadOf "x" 1, loadOf "y" 2] := by
    decide
  have hlabels : Consistent [loadOf "x" 1, loadOf "y" 2] ∧ Announced [loadOf "x" 1, loadOf "y" 2] :=
    firstFault?_labelFault?_eq_none_iff.1 rfl
  have hallocation : allocationFault? top ⟨"a.asm", 1, 1⟩ = none :=
    allocationFault?_eq_none_iff.2 ⟨by omega,
      Bindings.allocationObstacle?_eq_none_iff.2 ⟨hshort, by decide, by decide⟩⟩
  have hnone : fault? (settingsAt top) [loadOf "x" 1, loadOf "y" 2] [] (loadOf "x" 1) = none := by
    refine Option.eq_none_iff_forall_ne_some.2 fun i hi => ?_
    rcases (fault?_eq_some_iff_of_addressLoad rfl).1 hi with
      ⟨hliteral, -⟩ | ⟨-, h⟩ | ⟨-, -, hlimit, -⟩
    · exact absurd hliteral (by decide)
    · rw [hfirst] at h
      cases hallocation.symm.trans h
    · rw [hfirst] at hlimit
      exact Int.lt_irrefl top hlimit
  have hbefore : Faultless (settingsAt top) [loadOf "x" 1, loadOf "y" 2] [loadOf "x" 1] := by
    rw [faultless_iff, firstFault?, hnone]
    rfl
  have hrefused : Refused (settingsAt top) "a.asm" ["@x", "@y"] (.unwritable .longNumber) :=
    .of_longAddress hstatements hlabels (List.singleton_append ..).symm hbefore rfl rfl
      (by rw [hsecond]; omega) (by rwa [hsecond])
  exact ⟨hbefore, assembleLines_eq_error_iff.2 hrefused⟩

/-- If its address has too many digits, a variable at the limit is refused, and one above the limit is
not reported as such. -/
theorem variables_beyond_messages :
    (Statement.ofLines "a.asm" ["@x"] = .ok [loadOf "x" 1] ∧ Consistent [loadOf "x" 1] ∧
      addressOf (settingsAt (10 ^ Numeral.digitLimit)) [loadOf "x" 1] "x" =
        10 ^ Numeral.digitLimit ∧
      (settingsAt (10 ^ Numeral.digitLimit)).limit = some (10 ^ Numeral.digitLimit) ∧
      ((start (settingsAt (10 ^ Numeral.digitLimit))).assembleLines "a.asm" ["@x"]).2 =
        .error (.unwritable .longNumber)) ∧
    (Statement.ofLines "a.asm" ["@x", "@y"] = .ok [loadOf "x" 1, loadOf "y" 2] ∧
      Consistent [loadOf "x" 1, loadOf "y" 2] ∧
      Faultless (settingsAt (10 ^ Numeral.digitLimit - 1)) [loadOf "x" 1, loadOf "y" 2]
        [loadOf "x" 1] ∧
      addressOf (settingsAt (10 ^ Numeral.digitLimit - 1)) [loadOf "x" 1, loadOf "y" 2] "y" =
        10 ^ Numeral.digitLimit ∧
      (settingsAt (10 ^ Numeral.digitLimit - 1)).limit = some (10 ^ Numeral.digitLimit - 1) ∧
      ((start (settingsAt (10 ^ Numeral.digitLimit - 1))).assembleLines "a.asm" ["@x", "@y"]).2 =
        .error (.unwritable .longNumber)) := by
  have hlong : ¬ Numeral.isWritable ((10 : Int) ^ Numeral.digitLimit) = true :=
    Numeral.isWritable_pow_iff.not.2 (Nat.lt_irrefl _)
  have hshort : Numeral.isWritable ((10 : Int) ^ Numeral.digitLimit - 1) = true :=
    Numeral.isWritable_pow_sub_one (Nat.le_refl _)
  have hbeyond : 65535 < (10 : Int) ^ Numeral.digitLimit :=
    Numeral.lt_intPow_digitLimit (Int.le_refl _)
  -- Nothing else matters about the power of ten, which is never computed.
  generalize (10 : Int) ^ Numeral.digitLimit = top at hlong hshort hbeyond ⊢
  have hstep : top - 1 + 1 = top := Int.sub_add_cancel top 1
  have hfree : top ∉ Machine.reserved := notMem_reserved (by omega)
  have hsecond := addressOf_second (notMem_reserved (by omega : 24576 < top - 1)) (by rwa [hstep])
  obtain ⟨hbefore, hfails⟩ := assembleLines_loadXY (by omega) hshort (by rwa [hstep])
  refine ⟨⟨by decide, (firstFault?_labelFault?_eq_none_iff.1 rfl).1, (addressOf_first hfree).1, rfl,
    assembleLines_loadX (by omega) hlong⟩, by decide, (firstFault?_labelFault?_eq_none_iff.1 rfl).1,
    hbefore, hsecond.trans hstep, rfl, hfails⟩

end Assembler

end HackToolchain
