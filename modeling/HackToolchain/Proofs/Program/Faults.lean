import HackToolchain.Proofs.Instruction.Coding
import HackToolchain.Proofs.Program.Passes

/-!
# What ends a run

What a run fails with can be said without running the two passes, as its words can. A declaration
conflicts with the symbol that its name has by then, be it predefined or declared before, if that has
another address than the number of instructions before the declaration. An instruction fails for what
it says and for the address of its operand, which the program as a whole decides; the first use of a
variable fails as well if its address is negative or cannot be announced.

The first pass ends at the first declaration that fails, and the second one at the first instruction
that does. The second pass is not begun before the first one has come to its end, so a conflict at
the end of a program is reported before an instruction at its beginning.
-/

namespace HackToolchain

open Text

variable {settings : Settings} {program done rest statements : List Statement} {s : Statement}
variable {name operand : String} {b b' : Bindings} {i : Interruption} {d : Diagnostic}
variable {place : Location}

/-! ### Unknown mnemonics -/

/-- The cause that reports a text as no mnemonic of a field. -/
def Field.unknown (f : Field) (mnemonic : String) : Cause :=
  .unknownMnemonic f.name mnemonic (similar (f.table.map Prod.fst) mnemonic)

theorem Field.encode_eq (f : Field) (mnemonic : String) : f.encode mnemonic =
    match f.table.code? mnemonic with
    | some bits => .ok bits
    | none => .error (f.unknown mnemonic) := rfl

namespace Fields

variable {fields : Fields} {f : Field} {cause : Cause}

/-- The text of a field, unless it is left out. -/
def written? (fields : Fields) : Field → Option String
  | .dest => fields.dest
  | .comp => some fields.comp
  | .jump => fields.jump

/-- The mnemonic of a field; `null` for one that is left out. -/
def mnemonic (fields : Fields) (f : Field) : String :=
  (fields.written? f).getD nullMnemonic

/-- The first field, in the order in which they are encoded, of which the mnemonic is not in the
table. -/
def unknown? (fields : Fields) : Option Field :=
  [Field.comp, .dest, .jump].find? fun f => (f.table.code? (fields.mnemonic f)).isNone

theorem unknown?_eq_none_iff :
    fields.unknown? = none ↔ ∀ f : Field, f.table.code? (fields.mnemonic f) ≠ none := by
  simp only [unknown?, List.find?_eq_none, List.forall_mem_cons, Option.isNone_iff_eq_none]
  constructor
  · rintro ⟨hcomp, hdest, hjump, -⟩ f
    cases f with
    | dest => exact hdest
    | comp => exact hcomp
    | jump => exact hjump
  · intro h
    exact ⟨h .comp, h .dest, h .jump, by simp⟩

/-- A field that is reported is written, since the tables have a mnemonic for one that is left out. -/
theorem written?_of_unknown? (h : fields.unknown? = some f) : ∃ mnemonic,
    fields.written? f = some mnemonic ∧ fields.mnemonic f = mnemonic ∧
      f.table.code? mnemonic = none := by
  have hunknown : f.table.code? (fields.mnemonic f) = none := by
    simpa [unknown?] using List.find?_some h
  cases hwritten : fields.written? f with
  | some mnemonic =>
    have hmnemonic : fields.mnemonic f = mnemonic := by rw [Fields.mnemonic, hwritten]; rfl
    exact ⟨mnemonic, rfl, hmnemonic, hmnemonic ▸ hunknown⟩
  | none =>
    rw [Fields.mnemonic, hwritten] at hunknown
    cases f with
    | comp => simp [written?] at hwritten
    | dest => exact absurd hunknown (by decide)
    | jump => exact absurd hunknown (by decide)

/-- Compute instructions are encoded unless a field is unknown; the first such field is reported. -/
theorem encode_eq_error_iff : fields.encode = .error cause ↔
    ∃ f, fields.unknown? = some f ∧ cause = f.unknown (fields.mnemonic f) := by
  rw [encode, unknown?, Field.encode_eq, Field.encode_eq, Field.encode_eq]
  -- A field is looked up only if those before it are known, in the order in which they are searched.
  cases hcomp : Field.comp.table.code? fields.comp with
  | none => simp [mnemonic, written?, hcomp, bind, Except.bind, eq_comm]
  | some comp =>
    cases hdest : Field.dest.table.code? (fields.dest.getD nullMnemonic) with
    | none => simp [mnemonic, written?, hcomp, hdest, bind, Except.bind, eq_comm]
    | some dest =>
      cases hjump : Field.jump.table.code? (fields.jump.getD nullMnemonic) with
      | none => simp [mnemonic, written?, hcomp, hdest, hjump, bind, Except.bind, eq_comm]
      | some jump =>
        simp [mnemonic, written?, hcomp, hdest, hjump, bind, Except.bind, pure, Except.pure]

/-- An instruction that is encoded has no unknown mnemonic. -/
theorem unknown?_of_encode {w : Word} (h : fields.encode = .ok w) : fields.unknown? = none := by
  by_contra hne
  obtain ⟨f, hf⟩ := Option.ne_none_iff_exists'.1 hne
  simp [encode_eq_error_iff.2 ⟨f, hf, rfl⟩] at h

end Fields

/-- A diagnostic that is reported is the one that was to be. -/
theorem Interruption.eq_of_ofDiagnostic {memory : Int} {reported : Diagnostic}
    (h : Interruption.ofDiagnostic memory d = .diagnosed reported) : d = reported := by
  rw [ofDiagnostic] at h
  split at h
  · simp at h
  · exact Interruption.diagnosed.inj h

/-- A negative address is not reported by a diagnostic. -/
theorem Interruption.ofNegative_ne_diagnosed (address : Int) (d : Diagnostic) :
    ofNegative address ≠ diagnosed d := by
  rw [ofNegative]
  cases numberObstacle? address <;> simp

namespace Denotation

/-! ### The first fault -/

/-- The first fault among the statements behind some others, when each of them is judged behind those
before it. -/
def firstFault? (judge : List Statement → Statement → Option Interruption) (done : List Statement) :
    List Statement → Option Interruption
  | [] => none
  | s :: rest => (judge done s).or (firstFault? judge (done ++ [s]) rest)

variable {judge : List Statement → Statement → Option Interruption}

theorem firstFault?_append (before after : List Statement) :
    firstFault? judge done (before ++ after) =
      (firstFault? judge done before).or (firstFault? judge (done ++ before) after) := by
  induction before generalizing done with
  | nil => simp [firstFault?]
  | cons s before ih =>
    rw [List.cons_append, firstFault?, firstFault?, ih, Option.or_assoc, List.append_assoc,
      List.singleton_append]

theorem firstFault?_eq_none_iff : firstFault? judge done rest = none ↔
    ∀ before s after, rest = before ++ s :: after → judge (done ++ before) s = none := by
  induction rest generalizing done with
  | nil => simp [firstFault?]
  | cons s rest ih =>
    rw [firstFault?, Option.or_eq_none_iff, ih]
    -- A statement is the first one, behind what is done, or one of the rest, behind the first.
    constructor
    · rintro ⟨hfirst, hlater⟩ before t after hsplit
      cases before with
      | nil =>
        obtain ⟨rfl, -⟩ := List.cons.inj hsplit
        rwa [List.append_nil]
      | cons u before =>
        obtain ⟨rfl, hrest⟩ := List.cons.inj hsplit
        simpa using hlater before t after hrest
    · intro h
      constructor
      · simpa using h [] s rest rfl
      · intro before t after hsplit
        simpa using h (s :: before) t after (by rw [hsplit, List.cons_append])

theorem firstFault?_eq_some_iff : firstFault? judge done rest = some i ↔
    ∃ before s after, rest = before ++ s :: after ∧ firstFault? judge done before = none ∧
      judge (done ++ before) s = some i := by
  induction rest generalizing done with
  | nil => simp [firstFault?]
  | cons s rest ih =>
    rw [firstFault?, Option.or_eq_some_iff, ih]
    constructor
    · rintro (hfirst | ⟨hfirst, before, t, after, rfl, hbefore, ht⟩)
      · exact ⟨[], s, rest, rfl, rfl, by simpa using hfirst⟩
      · refine ⟨s :: before, t, after, rfl, ?_, by simpa using ht⟩
        rw [firstFault?, hfirst, Option.none_or, hbefore]
    · rintro ⟨before, t, after, hsplit, hbefore, ht⟩
      cases before with
      | nil =>
        obtain ⟨rfl, -⟩ := List.cons.inj hsplit
        exact .inl (by simpa using ht)
      | cons u before =>
        obtain ⟨rfl, hrest⟩ := List.cons.inj hsplit
        rw [firstFault?, Option.or_eq_none_iff] at hbefore
        exact .inr ⟨hbefore.1, before, t, after, hrest, hbefore.2, by simpa using ht⟩

/-! ### Declarations that fail -/

/-- The conflict of a declaration behind some statements: its name is bound by then, to another
address than the number of instructions before it. -/
def conflict? (done : List Statement) (s : Statement) : Option Diagnostic :=
  s.command.labelName?.bind fun name =>
    let label : Symbol := ⟨name, instructionCount done, .label, some s.location⟩
    ((labelTable done).find? name).bind fun existing =>
      if existing.address = label.address then none else some (label.conflict existing (some s.source))

/-- What keeps a new label from being announced: the number of instructions before its declaration
cannot be written. -/
def labelObstacle? (done : List Statement) (s : Statement) : Option Obstacle :=
  s.command.labelName?.bind fun name =>
    (labelTable done).announcementObstacle? ⟨name, instructionCount done, .label, some s.location⟩

/-- What a declaration behind some statements fails with. -/
def labelFault? (done : List Statement) (s : Statement) : Option Interruption :=
  ((conflict? done s).map (.ofDiagnostic ampleMemory)).or ((labelObstacle? done s).map .unwritable)

/-- Every declaration of a name that is bound by then, be it predefined or declared before, stands
behind as many instructions as the address of the name says. -/
def Consistent (statements : List Statement) : Prop :=
  ∀ before s after name existing, statements = before ++ s :: after → s.command = .label name →
    (labelTable before).find? name = some existing →
    existing.address = instructionCount before

/-- The number of instructions before every new label can be written. -/
def Announced (statements : List Statement) : Prop :=
  ∀ before s after name, statements = before ++ s :: after → s.command = .label name →
    (labelTable before).find? name = none → Numeral.isWritable (instructionCount before) = true

theorem conflict?_eq_some_iff : conflict? done s = some d ↔
    ∃ name existing, s.command = .label name ∧ (labelTable done).find? name = some existing ∧
      existing.address ≠ instructionCount done ∧
      d = Symbol.conflict ⟨name, instructionCount done, .label, some s.location⟩ existing
        (some s.source) := by
  simp only [conflict?, Option.bind_eq_some_iff, Command.labelName?_eq_some_iff,
    Option.ite_none_left_eq_some, Option.some.injEq]
  constructor
  · rintro ⟨name, hname, existing, hfind, hne, rfl⟩
    exact ⟨name, existing, hname, hfind, hne, rfl⟩
  · rintro ⟨name, existing, hname, hfind, hne, rfl⟩
    exact ⟨name, hname, existing, hfind, hne, rfl⟩

theorem conflict?_eq_none_iff : conflict? done s = none ↔
    ∀ name existing, s.command = .label name → (labelTable done).find? name = some existing →
      existing.address = instructionCount done := by
  simp only [Option.eq_none_iff_forall_ne_some, ne_eq, conflict?_eq_some_iff]
  constructor
  · intro h name existing hname hfind
    by_contra hne
    exact h _ ⟨name, existing, hname, hfind, hne, rfl⟩
  · rintro h d ⟨name, existing, hname, hfind, hne, -⟩
    exact hne (h name existing hname hfind)

theorem labelObstacle?_eq_some_iff {obstacle : Obstacle} : labelObstacle? done s = some obstacle ↔
    ∃ name, s.command = .label name ∧ (labelTable done).find? name = none ∧
      numberObstacle? (instructionCount done) = some obstacle := by
  simp only [labelObstacle?, Option.bind_eq_some_iff, Command.labelName?_eq_some_iff,
    SymbolTable.announcementObstacle?_eq_some_iff]

theorem labelObstacle?_eq_none_iff : labelObstacle? done s = none ↔
    ∀ name, s.command = .label name → (labelTable done).find? name = none →
      Numeral.isWritable (instructionCount done) = true := by
  simp only [labelObstacle?, Option.bind_eq_none_iff, Command.labelName?_eq_some_iff,
    SymbolTable.announcementObstacle?_eq_none_iff, numberObstacle?_eq_none_iff]

/-- A declaration is in conflict with a symbol that is bound, or it cannot announce a new label. -/
theorem labelFault?_eq_some_iff : labelFault? done s = some i ↔
    (∃ d, conflict? done s = some d ∧ i = .ofDiagnostic ampleMemory d) ∨
      ∃ obstacle, labelObstacle? done s = some obstacle ∧ i = .unwritable obstacle := by
  rw [labelFault?, Option.or_eq_some_iff, Option.map_eq_some_iff, Option.map_eq_none_iff,
    Option.map_eq_some_iff]
  constructor
  · rintro (⟨d, hd, rfl⟩ | ⟨-, obstacle, hobstacle, rfl⟩)
    · exact .inl ⟨d, hd, rfl⟩
    · exact .inr ⟨obstacle, hobstacle, rfl⟩
  · rintro (⟨d, hd, rfl⟩ | ⟨obstacle, hobstacle, rfl⟩)
    · exact .inl ⟨d, hd, rfl⟩
    · obtain ⟨name, hname, hnone, -⟩ := labelObstacle?_eq_some_iff.1 hobstacle
      refine .inr ⟨conflict?_eq_none_iff.2 fun other existing hother hfind => ?_, obstacle,
        hobstacle, rfl⟩
      obtain rfl := Command.label.inj (hname.symm.trans hother)
      simp [hnone] at hfind

/-- A declaration that is diagnosed is in conflict. -/
theorem conflict?_of_labelFault? (h : labelFault? done s = some (.diagnosed d)) :
    conflict? done s = some d := by
  rcases labelFault?_eq_some_iff.1 h with ⟨conflict, hconflict, hd⟩ | ⟨obstacle, -, hd⟩
  · rw [hconflict, Interruption.eq_of_ofDiagnostic hd.symm]
  · cases hd

/-- No declaration fails in a program that is consistent and announces its labels. -/
theorem firstFault?_labelFault?_eq_none_iff : firstFault? labelFault? [] statements = none ↔
    Consistent statements ∧ Announced statements := by
  simp only [firstFault?_eq_none_iff, List.nil_append, labelFault?, Option.or_eq_none_iff,
    Option.map_eq_none_iff, conflict?_eq_none_iff, labelObstacle?_eq_none_iff]
  constructor
  · intro h
    constructor
    · intro before s after name existing hsplit hname hfind
      exact (h before s after hsplit).1 name existing hname hfind
    · intro before s after name hsplit hname hfind
      exact (h before s after hsplit).2 name hname hfind
  · rintro ⟨hconsistent, hannounced⟩ before s after hsplit
    constructor
    · intro name existing hname hfind
      exact hconsistent before s after name existing hsplit hname hfind
    · intro name hname hfind
      exact hannounced before s after name hsplit hname hfind

/-- A step of the first pass fails as the closed form has it. -/
theorem labelFault?_eq (hs : s.command = .label name) : labelFault? done s =
    match ((labelTable done).bind ampleMemory ⟨name, instructionCount done, .label, some s.location⟩
      (some s.source)).2 with
    | .ok _ => none
    | .error i => some i := by
  have hlabel : s.command.labelName? = some name := Command.labelName?_eq_some_iff.2 hs
  cases hfind : (labelTable done).find? name with
  | some existing =>
    rw [SymbolTable.bind_of_find?_eq_some hfind]
    by_cases haddress : existing.address = instructionCount done
    · simp [labelFault?, conflict?, labelObstacle?, hlabel, hfind, haddress,
        SymbolTable.announcementObstacle?, SymbolTable.contains]
    · simp [labelFault?, conflict?, hlabel, hfind, haddress]
  | none =>
    -- A number of instructions is not negative, so a new label is bound.
    have hcount : ¬ (instructionCount done : Int) < 0 := by omega
    rw [SymbolTable.bind_of_find?_eq_none hfind, if_neg hcount]
    cases hwritten : numberObstacle? (instructionCount done) <;>
      simp [labelFault?, conflict?, labelObstacle?, hlabel, hfind, hwritten,
        SymbolTable.announcementObstacle?, SymbolTable.contains]

/-- The first pass is ended by the first declaration that fails. -/
theorem fault_bindLabels : (bindLabels (labelTable done) (instructionCount done) rest).fault =
    firstFault? labelFault? done rest := by
  induction rest generalizing done with
  | nil => rfl
  | cons s rest ih =>
    cases hlabel : s.command.labelName? with
    | none =>
      rw [bindLabels_cons_of_labelName? hlabel, ← instructionCount_append_singleton,
        ← labelTable_append_of_labelName? hlabel, ih]
      simp [firstFault?, labelFault?, conflict?, labelObstacle?, hlabel]
    | some name =>
      have hs := Command.labelName?_eq_some_iff.1 hlabel
      have hstep : labelFault? done s = _ := labelFault?_eq hs
      simp only [bindLabels, hs, firstFault?]
      cases hbind : (labelTable done).bind ampleMemory
          ⟨name, instructionCount done, .label, some s.location⟩ (some s.source) with
      | mk bound result =>
        rw [hbind] at hstep
        cases result with
        | error i => rw [hstep, Option.some_or]
        | ok =>
          -- The declaration is no instruction, so the pass goes on with the same count.
          have hcount : instructionCount (done ++ [s]) = instructionCount done := by
            rw [instructionCount_append_singleton, hs]
            rfl
          obtain rfl := define_labelTable hs (SymbolTable.define_of_bind hbind)
          rw [hstep, Option.none_or, ← ih, hcount]

/-- The first pass over a whole program is ended by the first declaration that fails. -/
theorem fault_bindLabels_initial (statements : List Statement) :
    (bindLabels .initial 0 statements).fault = firstFault? labelFault? [] statements := by
  rw [← labelTable_nil]
  exact fault_bindLabels

/-! ### Instructions that fail -/

end Denotation

/-- The diagnostic of a statement, placed at the part that is at fault. -/
def Statement.diagnostic (s : Statement) (cause : Cause) : Diagnostic :=
  ⟨cause, some (s.faultPlace cause), some s.source⟩

namespace Denotation

/-- Whether a literal has more digits than are read. -/
def isLongLiteral (operand : String) : Bool :=
  Numeral.isLiteral operand && decide (Numeral.digitLimit < operand.toList.length)

/-- Whether an operand behind some statements is the first use of a variable. -/
def isFirstUse (program done : List Statement) (operand : String) : Bool :=
  isVariable program operand && !(operands done).contains operand

/-- What an address fails with that is given to a variable. -/
def allocationFault? (address : Int) (place : Location) : Option Interruption :=
  if address < 0 then some (.ofNegative address)
  else (Bindings.allocationObstacle? address place).map .unwritable

/-- What an instruction behind some statements of a program fails with: its literal is too long, or
its operand is a new variable that cannot be bound and announced, or its address is beyond the limit,
or it has an unknown mnemonic. -/
def fault? (settings : Settings) (program done : List Statement) (s : Statement) :
    Option Interruption :=
  match s.command with
  | .addressLoad operand =>
    let address := addressOf settings program operand
    let limit := Word.addressLimit settings.limit
    if isLongLiteral operand then some (.numeral (.tooLong operand.toList.length))
    else
      (if isFirstUse program done operand then allocationFault? address s.location else none).or
        (if limit < address then
          some (.ofDiagnostic ampleMemory (s.diagnostic (.addressRange address limit)))
        else none)
  | .compute fields =>
    fields.unknown?.map fun f =>
      .ofDiagnostic ampleMemory (s.diagnostic (f.unknown (fields.mnemonic f)))
  | .label _ | .remark => none

/-- An instruction that fails at a place behind some statements of a program. -/
inductive Fails (settings : Settings) (program done : List Statement) (place : Location) :
    Command → Prop where
  /-- Its literal has too many digits. -/
  | longLiteral {operand : String} (hlong : isLongLiteral operand = true) :
      Fails settings program done place (.addressLoad operand)
  /-- It would bind a new variable to a negative address. -/
  | negativeVariable {operand : String} (hfirst : isFirstUse program done operand = true)
      (hnegative : addressOf settings program operand < 0) :
      Fails settings program done place (.addressLoad operand)
  /-- It binds a new variable, but its address or the place of its first use cannot be written. -/
  | unannouncedVariable {operand : String} {obstacle : Obstacle}
      (hfirst : isFirstUse program done operand = true)
      (hobstacle : Bindings.allocationObstacle? (addressOf settings program operand) place =
        some obstacle) :
      Fails settings program done place (.addressLoad operand)
  /-- Its address is beyond the limit. -/
  | beyondLimit {operand : String}
      (hlimit : Word.addressLimit settings.limit < addressOf settings program operand) :
      Fails settings program done place (.addressLoad operand)
  /-- The table of a field does not have its mnemonic. -/
  | unknownMnemonic {fields : Fields} (f : Field)
      (hunknown : f.table.code? (fields.mnemonic f) = none) :
      Fails settings program done place (.compute fields)

/-- None of the first statements of a program fails. -/
def Faultless (settings : Settings) (program statements : List Statement) : Prop :=
  ∀ before s after, statements = before ++ s :: after →
    ¬ Fails settings program before s.location s.command

theorem isLongLiteral_of_isFirstUse (h : isFirstUse program done operand = true) :
    isLongLiteral operand = false := by
  rw [isFirstUse, Bool.and_eq_true, isVariable_eq_true_iff] at h
  simp [isLongLiteral, h.1.1]

theorem allocationFault?_eq_some_iff {address : Int} : allocationFault? address place = some i ↔
    address < 0 ∧ i = .ofNegative address ∨
      0 ≤ address ∧ ∃ obstacle, Bindings.allocationObstacle? address place = some obstacle ∧
        i = .unwritable obstacle := by
  rw [allocationFault?]
  by_cases hneg : address < 0
  · simp [hneg, Int.not_le.2 hneg, @eq_comm _ i]
  · simp [hneg, Int.not_lt.1 hneg, @eq_comm _ i]

theorem allocationFault?_eq_none_iff {address : Int} : allocationFault? address place = none ↔
    0 ≤ address ∧ Bindings.allocationObstacle? address place = none := by
  rw [allocationFault?]
  by_cases hneg : address < 0
  · simp [hneg, Int.not_le.2 hneg]
  · simp [hneg, Int.not_lt.1 hneg]

/-- An allocation that fails is not diagnosed. -/
theorem allocationFault?_ne_diagnosed (address : Int) (place : Location) (d : Diagnostic) :
    allocationFault? address place ≠ some (.diagnosed d) := by
  rw [allocationFault?]
  split
  · simpa using Interruption.ofNegative_ne_diagnosed address d
  · simp

/-- An address load fails for its literal, for the allocation of its operand, or for its address. -/
theorem fault?_eq_some_iff_of_addressLoad (hs : s.command = .addressLoad operand) :
    fault? settings program done s = some i ↔
      isLongLiteral operand = true ∧ i = .numeral (.tooLong operand.toList.length) ∨
      isFirstUse program done operand = true ∧
        allocationFault? (addressOf settings program operand) s.location = some i ∨
      isLongLiteral operand = false ∧
        (isFirstUse program done operand = true →
          allocationFault? (addressOf settings program operand) s.location = none) ∧
        Word.addressLimit settings.limit < addressOf settings program operand ∧
        i = .ofDiagnostic ampleMemory (s.diagnostic (.addressRange
          (addressOf settings program operand) (Word.addressLimit settings.limit))) := by
  simp only [fault?, hs]
  cases hlong : isLongLiteral operand with
  | true =>
    have hfirst : isFirstUse program done operand = false := by
      by_contra hfirst
      simp [isLongLiteral_of_isFirstUse (Bool.not_eq_false _ ▸ hfirst)] at hlong
    simp [hfirst, @eq_comm _ i]
  | false =>
    cases hfirst : isFirstUse program done operand with
    | true => simp [Option.or_eq_some_iff, @eq_comm _ i]
    | false => simp [@eq_comm _ i]

/-- A compute instruction fails for the first of its fields that is unknown. -/
theorem fault?_eq_some_iff_of_compute {fields : Fields} (hs : s.command = .compute fields) :
    fault? settings program done s = some i ↔ ∃ f, fields.unknown? = some f ∧
      i = .ofDiagnostic ampleMemory (s.diagnostic (f.unknown (fields.mnemonic f))) := by
  simp only [fault?, hs, Option.map_eq_some_iff, @eq_comm _ i]

/-- What an instruction fails with, and why. -/
theorem fault?_cases (h : fault? settings program done s = some i) :
    (∃ operand, s.command = .addressLoad operand ∧
      (isLongLiteral operand = true ∧ i = .numeral (.tooLong operand.toList.length) ∨
        isFirstUse program done operand = true ∧
          allocationFault? (addressOf settings program operand) s.location = some i ∨
        isLongLiteral operand = false ∧
          (isFirstUse program done operand = true →
            allocationFault? (addressOf settings program operand) s.location = none) ∧
          Word.addressLimit settings.limit < addressOf settings program operand ∧
          i = .ofDiagnostic ampleMemory (s.diagnostic (.addressRange
            (addressOf settings program operand) (Word.addressLimit settings.limit))))) ∨
    ∃ fields f mnemonic, s.command = .compute fields ∧ fields.written? f = some mnemonic ∧
      f.table.code? mnemonic = none ∧
      i = .ofDiagnostic ampleMemory (s.diagnostic (f.unknown mnemonic)) := by
  cases hs : s.command with
  | addressLoad operand => exact .inl ⟨operand, rfl, (fault?_eq_some_iff_of_addressLoad hs).1 h⟩
  | compute fields =>
    obtain ⟨f, hf, rfl⟩ := (fault?_eq_some_iff_of_compute hs).1 h
    obtain ⟨mnemonic, hwritten, hmnemonic, hunknown⟩ := Fields.written?_of_unknown? hf
    exact .inr ⟨fields, f, mnemonic, rfl, hwritten, hunknown, by rw [hmnemonic]⟩
  | label name => simp [fault?, hs] at h
  | remark => simp [fault?, hs] at h

/-- An instruction fails for one of five reasons. -/
theorem isSome_fault?_iff : (fault? settings program done s).isSome = true ↔
    Fails settings program done s.location s.command := by
  constructor
  · intro h
    obtain ⟨i, hi⟩ := Option.isSome_iff_exists.1 h
    rcases fault?_cases hi with ⟨operand, hs, ⟨hlong, -⟩ | ⟨hfirst, hallocation⟩ | ⟨-, -, hlimit, -⟩⟩ |
      ⟨fields, f, mnemonic, hs, hwritten, hunknown, -⟩
    · exact hs ▸ .longLiteral hlong
    · rcases allocationFault?_eq_some_iff.1 hallocation with ⟨hneg, -⟩ | ⟨-, obstacle, hobstacle, -⟩
      · exact hs ▸ .negativeVariable hfirst hneg
      · exact hs ▸ .unannouncedVariable hfirst hobstacle
    · exact hs ▸ .beyondLimit hlimit
    · exact hs ▸ .unknownMnemonic f (by rwa [Fields.mnemonic, hwritten])
  · intro h
    cases hs : s.command with
    | addressLoad operand =>
      rw [hs] at h
      rw [← Option.ne_none_iff_isSome]
      intro hnone
      -- Nothing of the three parts of the closed form is left.
      simp only [fault?, hs] at hnone
      cases hlong : isLongLiteral operand with
      | true => simp [hlong] at hnone
      | false =>
        simp only [hlong, Bool.false_eq_true, if_false, Option.or_eq_none_iff] at hnone
        have hallocation (hfirst : isFirstUse program done operand = true) :=
          allocationFault?_eq_none_iff.1 (by simpa [hfirst] using hnone.1)
        cases h with
        | longLiteral hlong' => simp [hlong'] at hlong
        | negativeVariable hfirst hneg => exact absurd hneg (Int.not_lt.2 (hallocation hfirst).1)
        | unannouncedVariable hfirst hobstacle => simp [(hallocation hfirst).2] at hobstacle
        | beyondLimit hlimit => simp [hlimit] at hnone
    | compute fields =>
      rw [hs] at h
      obtain ⟨f, hunknown⟩ : ∃ f : Field, f.table.code? (fields.mnemonic f) = none := by
        cases h with
        | unknownMnemonic f hunknown => exact ⟨f, hunknown⟩
      simp only [fault?, hs, Option.isSome_map]
      rw [← Option.ne_none_iff_isSome]
      exact fun hnone => Fields.unknown?_eq_none_iff.1 hnone f hunknown
    | label name => rw [hs] at h; cases h
    | remark => rw [hs] at h; cases h

theorem faultless_iff : Faultless settings program statements ↔
    firstFault? (fault? settings program) [] statements = none := by
  simp only [firstFault?_eq_none_iff, List.nil_append, Faultless, ← isSome_fault?_iff,
    Option.not_isSome_iff_eq_none]

theorem isFirstUse_eq_true_iff : isFirstUse program done operand = true ↔
    isVariable program operand = true ∧ operand ∉ operands done := by
  simp [isFirstUse]

theorem isFirstUse_eq_false_iff : isFirstUse program done operand = false ↔
    (isVariable program operand = true → operand ∈ operands done) := by
  simp [isFirstUse]

/-- A variable that some statements use is used for the first time by one of them. -/
theorem exists_isFirstUse (hvariable : isVariable program operand = true)
    (hused : operand ∈ operands done) :
    ∃ front t back, done = front ++ t :: back ∧ t.command = .addressLoad operand ∧
      isFirstUse program front operand = true := by
  obtain ⟨t, ht, hload⟩ := mem_operands_iff.1 hused
  have hsome : (done.find? fun t => t.command = .addressLoad operand).isSome :=
    List.find?_isSome.2 ⟨t, ht, by simpa using hload⟩
  obtain ⟨u, hu⟩ := Option.isSome_iff_exists.1 hsome
  obtain ⟨hfirst, front, back, rfl, hfront⟩ := List.find?_eq_some_iff_append.1 hu
  refine ⟨front, u, back, rfl, by simpa using hfirst, isFirstUse_eq_true_iff.2 ⟨hvariable, ?_⟩⟩
  intro hearlier
  obtain ⟨v, hv, hload⟩ := mem_operands_iff.1 hearlier
  simpa [hload] using hfront v hv

/-- Only a variable can have a negative address. -/
theorem isVariable_of_addressOf_neg (h : addressOf settings program operand < 0) :
    isVariable program operand = true := by
  rw [addressOf] at h
  rw [isVariable_eq_true_iff]
  cases hliteral : Numeral.isLiteral operand with
  | true =>
    simp only [hliteral, if_true] at h
    omega
  | false =>
    cases hpredefined : Machine.predefined.lookup operand with
    | some address =>
      have hnonneg : ∀ entry ∈ Machine.predefined, 0 ≤ entry.2 := by decide
      obtain ⟨before, behind, hsplit, -⟩ := List.lookup_eq_some_iff.1 hpredefined
      have haddress := hnonneg (operand, address) (by rw [hsplit]; simp)
      simp only [hliteral, hpredefined, Bool.false_eq_true, if_false] at h
      omega
    | none =>
      refine ⟨rfl, by simp [isPredefined, hpredefined], fun hlabel => ?_⟩
      simp only [hliteral, hpredefined, List.contains_iff_mem.2 hlabel, Bool.false_eq_true,
        if_false, if_true] at h
      omega

/-- An operand that is no first use has no negative address, if no statement before it fails. -/
theorem Faultless.addressOf_nonneg (hdone : Faultless settings program done)
    (hold : isFirstUse program done operand = false) : 0 ≤ addressOf settings program operand := by
  by_contra hneg
  have hneg := Int.not_le.1 hneg
  have hvariable := isVariable_of_addressOf_neg hneg
  -- The first use of the operand would have failed.
  obtain ⟨front, t, back, hsplit, hload, hfirst⟩ :=
    exists_isFirstUse hvariable (isFirstUse_eq_false_iff.1 hold hvariable)
  exact hdone front t back hsplit (hload ▸ .negativeVariable hfirst hneg)

end Denotation

namespace Bindings

open Denotation

/-- What an address load with a known address fails with. -/
theorem fault_encoded (hnonneg : 0 ≤ addressOf settings program operand) :
    (if Word.addressLimit settings.limit < addressOf settings program operand then
      some (Interruption.ofDiagnostic ampleMemory (s.diagnostic (.addressRange
        (addressOf settings program operand) (Word.addressLimit settings.limit))))
    else none) =
      match encoded (Word.ofAddress (addressOf settings program operand) settings.limit) with
      | .ok _ => none
      | .error i => some (i.locate s.faultPlace s.source) := by
  by_cases hlimit : Word.addressLimit settings.limit < addressOf settings program operand
  · rw [if_pos hlimit, Word.ofAddress, if_neg fun h => absurd h.2 (Int.not_le.2 hlimit)]
    exact congrArg some (Interruption.locate_ofCause _ _ _).symm
  · rw [if_neg hlimit, Word.ofAddress, if_pos ⟨hnonneg, Int.not_lt.1 hlimit⟩]
    rfl

/-- A name that is not bound is a variable at its first use, and a bound one is not. -/
theorem Matches.isFirstUse_eq (hb : Matches settings program done b)
    (hliteral : Numeral.isLiteral operand = false) :
    isFirstUse program done operand = !b.symbols.contains operand := by
  cases hbound : b.symbols.contains operand with
  | true =>
    rw [Bool.not_true, isFirstUse_eq_false_iff]
    intro hvariable
    obtain ⟨-, hpredefined, hlabel⟩ := isVariable_eq_true_iff.1 hvariable
    rw [hb.symbols_eq] at hbound
    rcases contains_usedTable.1 hbound with hp | hl | hused
    · simp [hpredefined] at hp
    · exact absurd hl hlabel
    · exact (mem_usedVariables_iff.1 hused).1
  | false =>
    obtain ⟨hvariable, hnew⟩ := hb.isVariable_of_not_contains hliteral hbound
    rw [Bool.not_false, isFirstUse_eq_true_iff]
    exact ⟨hvariable, fun hused => hnew (mem_usedVariables_iff.2 ⟨hused, hvariable⟩)⟩

/-- A step of the second pass fails as the closed form has it. -/
theorem Matches.fault_encode (hb : Matches settings program done b)
    (hprogram : program = done ++ s :: rest) (hdone : Faultless settings program done) :
    fault? settings program done s =
      match (b.encode settings s).2 with
      | .ok _ => none
      | .error i => some (i.locate s.faultPlace s.source) := by
  rw [Bindings.encode]
  cases hs : s.command with
  | addressLoad operand =>
    simp only [fault?, hs]
    -- The operand is a literal, a name that is bound by then, or a variable at its first use.
    cases hliteral : Numeral.isLiteral operand with
    | true =>
      have hvariable : isVariable program operand = false := by simp [isVariable, hliteral]
      rw [resolve_of_isLiteral hliteral, Numeral.readLiteral]
      by_cases hlong : Numeral.digitLimit < operand.toList.length
      · simp [isLongLiteral, hliteral, hlong, Interruption.locate]
      · have haddress : ((Nat.ofDigitChars 10 operand.toList 0 : Nat) : Int) =
            addressOf settings program operand := by simp [addressOf, hliteral]
        have hnonneg : 0 ≤ addressOf settings program operand :=
          haddress ▸ Int.natCast_nonneg (Nat.ofDigitChars 10 operand.toList 0)
        simp only [if_neg hlong, isFirstUse, hvariable, isLongLiteral, decide_eq_false hlong,
          haddress, Bool.and_false, Bool.false_and, Bool.false_eq_true, if_false, Option.none_or]
        exact fault_encoded hnonneg
    | false =>
      have hshort : isLongLiteral operand = false := by simp [isLongLiteral, hliteral]
      have hfirst := hb.isFirstUse_eq hliteral
      rw [hshort]
      cases hbound : b.symbols.contains operand with
      | true =>
        rw [hbound, Bool.not_true] at hfirst
        have hlookup : b.lookup operand = .ok (addressOf settings program operand) := by
          rw [Bindings.lookup, hb.symbols_eq, lookup_usedTable hliteral (hb.symbols_eq ▸ hbound)]
        rw [resolve_of_contains hliteral hbound, hlookup, hfirst]
        exact fault_encoded (hdone.addressOf_nonneg hfirst)
      | false =>
        rw [hbound, Bool.not_false] at hfirst
        have hnext := hb.addressOf_of_not_contains hprogram hs hliteral hbound
        rw [resolve_of_not_contains hliteral hbound, hfirst, ← hnext, allocationFault?]
        by_cases hneg : addressOf settings program operand < 0
        · rw [if_pos hneg, if_pos hneg]
          cases hwritten : numberObstacle? (addressOf settings program operand) <;>
            simp [Interruption.ofNegative, hwritten, Interruption.locate]
        · rw [if_neg hneg, if_neg hneg]
          cases hobstacle : allocationObstacle? (addressOf settings program operand) s.location with
          | some obstacle => rfl
          | none => exact fault_encoded (Int.not_lt.1 hneg)
  | compute fields =>
    simp only [fault?, hs]
    cases hencode : fields.encode with
    | ok word =>
      simp [Fields.unknown?_of_encode hencode, encoded]
    | error cause =>
      obtain ⟨f, hf, rfl⟩ := Fields.encode_eq_error_iff.1 hencode
      simp [hf, encoded, Interruption.locate_ofCause, Statement.diagnostic]
  | label name => simp [fault?, hs]
  | remark => simp [fault?, hs]

/-- The second pass is ended by the first instruction that fails. -/
theorem Matches.fault_emit {address : Nat} (hb : Matches settings program done b)
    (hprogram : program = done ++ rest) (hdone : Faultless settings program done) :
    (HackToolchain.emit settings b address rest).fault =
      firstFault? (fault? settings program) done rest := by
  -- The statements that have been encoded without failure go along, so `done` grows by one.
  induction rest generalizing done b address with
  | nil => rfl
  | cons s rest ih =>
    have hstep := hb.fault_encode hprogram hdone
    rw [HackToolchain.emit, firstFault?]
    cases hencode : b.encode settings s with
    | mk bound result =>
      rw [hencode] at hstep
      cases result with
      | error i => rw [hstep, Option.some_or]
      | ok word =>
        rw [hstep, Option.none_or]
        refine ih (hb.encode hprogram hencode).1 (by simpa using hprogram) ?_
        rw [faultless_iff, firstFault?_append, faultless_iff.1 hdone]
        simp [firstFault?, hstep]

end Bindings

/-! ### Runs -/

open Denotation

theorem Denotation.faultless_nil : Faultless settings program [] :=
  faultless_iff.2 rfl

/-- What ends a run: the first declaration that fails, or else the first instruction that does. -/
theorem fault_generate : (generate settings statements).fault =
    (firstFault? labelFault? [] statements).or
      (firstFault? (fault? settings statements) [] statements) := by
  have hlabels := fault_bindLabels_initial statements
  cases hfault : firstFault? labelFault? [] statements with
  | some i =>
    rw [hfault] at hlabels
    simp [generate, hlabels]
  | none =>
    rw [hfault] at hlabels
    simp only [generate, bindLabels_initial hlabels, Option.none_or]
    exact (Bindings.matches_start settings statements).fault_emit rfl faultless_nil

/-- A run comes to its end if no declaration and no instruction fails. -/
theorem generate_fault_eq_none_iff : (generate settings statements).fault = none ↔
    (Consistent statements ∧ Announced statements) ∧ Faultless settings statements statements := by
  rw [fault_generate, Option.or_eq_none_iff, firstFault?_labelFault?_eq_none_iff, faultless_iff]

/-- A run is ended by the first declaration that fails, if there is one, and else by the first
instruction that does. -/
theorem generate_fault_eq_some_iff : (generate settings statements).fault = some i ↔
    (∃ before s after, statements = before ++ s :: after ∧
      (Consistent before ∧ Announced before) ∧ labelFault? before s = some i) ∨
    ((Consistent statements ∧ Announced statements) ∧ ∃ before s after,
      statements = before ++ s :: after ∧ Faultless settings statements before ∧
        fault? settings statements before s = some i) := by
  rw [fault_generate, Option.or_eq_some_iff, firstFault?_labelFault?_eq_none_iff]
  simp only [firstFault?_eq_some_iff, firstFault?_labelFault?_eq_none_iff, ← faultless_iff,
    List.nil_append]

end HackToolchain
