import HackToolchain.Proofs.Acceptance
import HackToolchain.Proofs.Source.Columns
import HackToolchain.Proofs.Source.Files

/-!
# Places of diagnostics

A diagnostic of a text is placed in one of its lines, at a column within that line or directly behind
it. What stands there depends on the cause: the character at which a malformed line goes wrong, the
unknown mnemonic, the operand whose address is out of range, or the beginning of a declaration that
binds its name a second time. The message quotes the line and points at the column.
-/

namespace HackToolchain

open Denotation Text

variable {settings : Settings} {file text name raw : String} {lines front back : List String}
variable {statements before after : List Statement} {s : Statement} {d : Diagnostic}
variable {number : Nat} {a : Assembler}

/-! ### Labels and instructions of lines -/

namespace Source

/-- Whether a line declares a label. -/
def Declares (name raw : String) : Prop :=
  Statement.commandOf (trim raw) = .ok (some (.label name))

/-- Whether a line holds an instruction. -/
def holdsInstruction (raw : String) : Bool :=
  match Statement.commandOf (trim raw) with
  | .ok (some c) => c.isInstruction
  | _ => false

/-- The number of instructions among some lines. -/
def instructionTotal (lines : List String) : Nat :=
  lines.countP holdsInstruction

/-- The instructions of some statements are those of their lines. -/
theorem instructionTotal_of_ofLinesFrom
    (h : Statement.ofLinesFrom file number lines = .ok statements) :
    instructionCount statements = instructionTotal lines := by
  induction lines generalizing number statements with
  | nil =>
    obtain rfl := Except.ok.inj h
    rfl
  | cons raw lines ih =>
    obtain ⟨statement, behind, hraw, hbehind, rfl⟩ := Statement.ofLinesFrom_cons_eq_ok_iff.1 h
    obtain ⟨command, hcommand, rfl⟩ := Statement.ofLine_eq_ok_iff.1 hraw
    have hlines := ih hbehind
    simp only [instructionCount, instructionTotal, List.countP_append,
      List.countP_cons] at hlines ⊢
    rw [hlines, Nat.add_comm]
    cases command with
    | none => simp [holdsInstruction, hcommand]
    | some c => simp [holdsInstruction, hcommand]

end Source

/-- What a diagnostic points at that is placed in a line of a text, behind some others: its cause, and
the column. -/
inductive PointsAt (settings : Settings) (file : String) (lines front : List String) (raw : String) :
    Cause → Nat → Prop where
  /-- A malformed line is pointed at where it goes wrong. -/
  | malformed {fault : Source.Fault} (hfault : Statement.commandOf (trim raw) = .error fault) :
      PointsAt settings file lines front raw (.malformed fault.shape) (fault.index + 1)
  /-- A field is pointed at whose mnemonic is not in the table. -/
  | unknownMnemonic {fields : Fields} {f : Field} {mnemonic : String} {similar : List String}
      (hfields : Source.fields (trim raw) = .ok fields)
      (hwritten : fields.written? f = some mnemonic) (hunknown : f.table.code? mnemonic = none)
      (hstands : mnemonic.toList <+: (trim raw).toList.drop (fields.start f)) :
      PointsAt settings file lines front raw (.unknownMnemonic f.name mnemonic similar)
        (fields.start f + 1)
  /-- An operand is pointed at whose address is beyond the limit. -/
  | addressRange {statements : List Statement} {operand : String}
      (hstatements : Statement.ofLines file lines = .ok statements)
      (hoperand : untilBlank ((trim raw).toList.drop 1) = operand.toList)
      (hlimit : Word.addressLimit settings.limit < addressOf settings statements operand) :
      PointsAt settings file lines front raw
        (.addressRange (addressOf settings statements operand) (Word.addressLimit settings.limit)) 2
  /-- A declaration is pointed at whose name is predefined at another address. -/
  | predefinedLabel {name : String} {address : Int} (hdeclares : Source.Declares name raw)
      (hpredefined : Machine.predefined.lookup name = some address)
      (hother : address ≠ Source.instructionTotal front) :
      PointsAt settings file lines front raw
        (.duplicateSymbol name (Source.instructionTotal front) address none) 1
  /-- A declaration is pointed at that is the first one to stand behind another number of instructions
  than the first declaration of the name, which is remembered. -/
  | repeatedLabel {name first : String} {pre mid : List String}
      (hdeclares : Source.Declares name raw) (hfront : front = pre ++ first :: mid)
      (hfirst : Source.Declares name first) (hpre : ∀ r ∈ pre, ¬ Source.Declares name r)
      (hother : Source.instructionTotal pre ≠ Source.instructionTotal front)
      (hmid : ∀ head r tail, front = head ++ r :: tail → Source.Declares name r →
        Source.instructionTotal head = Source.instructionTotal pre) :
      PointsAt settings file lines front raw
        (.duplicateSymbol name (Source.instructionTotal front) (Source.instructionTotal pre)
          (some ⟨file, (pre.length + 1 : Nat), 1⟩)) 1

/-- The place of a diagnostic in some lines. -/
structure PlacedAt (settings : Settings) (file : String) (lines front : List String) (raw : String)
    (column : Nat) (d : Diagnostic) : Prop where
  location_eq : d.location = some ⟨file, (front.length + 1 : Nat), column⟩
  sourceLine_eq : d.sourceLine = some (trim raw)
  one_le_column : 1 ≤ column
  column_le : column ≤ (trim raw).toList.length + 1
  pointsAt : PointsAt settings file lines front raw d.cause column

/-! ### Declarations -/

namespace Denotation

/-- The first declaration of a label, and its symbol. -/
theorem exists_labelSymbol_eq (h : name ∈ labelNames before) : ∃ front s back,
    before = front ++ s :: back ∧ s.command = .label name ∧ name ∉ labelNames front ∧
      labelSymbol before name =
        ⟨name, instructionCount front, .label, some s.location⟩ := by
  obtain ⟨t, ht, hlabel⟩ := mem_labelNames_iff.1 h
  obtain ⟨s, hs⟩ := Option.isSome_iff_exists.1 (List.find?_isSome
    (p := fun s : Statement => decide (s.command = .label name)).2 ⟨t, ht, by simpa using hlabel⟩)
  obtain ⟨hdeclares, front, back, rfl, hfront⟩ := List.find?_eq_some_iff_append.1 hs
  have hnone : name ∉ labelNames front := by
    rintro hmem
    obtain ⟨u, hu, hother⟩ := mem_labelNames_iff.1 hmem
    simpa [hother] using hfront u hu
  have hcommand : s.command = .label name := by simpa using hdeclares
  exact ⟨front, s, back, rfl, hcommand, hnone, labelSymbol_append_of_notMem hnone hcommand⟩

/-- In a consistent program every declaration of a label stands where its first one does. -/
theorem Consistent.labelAddress_eq (h : Consistent statements)
    (hsplit : statements = before ++ s :: after) (hs : s.command = .label name)
    (hpredefined : isPredefined name = false) :
    labelAddress statements name = instructionCount before := by
  by_cases hmem : name ∈ labelNames before
  · have hfind : (labelTable before).find? name = some (labelSymbol before name) := by
      rw [find?_labelTable, find?_initial_eq_none_iff.2 hpredefined, Option.none_or,
        if_pos (mem_newLabels_iff.2 ⟨hmem, hpredefined⟩)]
    have haddress := h before s after name _ hsplit hs hfind
    rw [hsplit, labelAddress_append_of_mem hmem]
    exact Int.ofNat.inj haddress
  · rw [hsplit, labelAddress_append_of_notMem hmem hs]

end Denotation

/-- A label of a source has its first declaration in one of the lines. -/
theorem Source.not_declares_of_ofLinesFrom
    (h : Statement.ofLinesFrom file number lines = .ok statements)
    (hnone : name ∉ labelNames statements) : ∀ r ∈ lines, ¬ Source.Declares name r := by
  intro r hr hdeclares
  obtain ⟨front, back, rfl⟩ := List.append_of_mem hr
  obtain ⟨before, s, after, rfl, -, hs⟩ :=
    Statement.exists_statement_of_ofLinesFrom hdeclares h
  exact hnone (mem_labelNames_iff.2 ⟨s, by simp, hs⟩)

namespace PointsAt

/-- A conflict with a label that is declared before. -/
theorem of_labelSymbol (hbefore : Statement.ofLinesFrom file 1 front = .ok before)
    (hraw : Source.Declares name raw) (hconsistent : Consistent before)
    (hmem : name ∈ labelNames before) (hpredefined : isPredefined name = false)
    (hother : labelAddress before name ≠ instructionCount before) :
    PointsAt settings file lines front raw
      (.duplicateSymbol name (instructionCount before) (labelAddress before name)
        (labelSymbol before name).location) 1 := by
  obtain ⟨earlier, t, later, rfl, ht, hnone, hsymbol⟩ := exists_labelSymbol_eq hmem
  obtain ⟨pre, first, mid, rfl, hpre, hfirst⟩ := Statement.exists_line_of_ofLinesFrom hbefore
  obtain ⟨hcommand, hlocation, -⟩ := Statement.ofLine_eq_some_iff.1 hfirst
  -- The addresses are the numbers of instructions among the lines before the two declarations.
  have haddress : labelAddress (earlier ++ t :: later) name = instructionCount earlier :=
    labelAddress_append_of_notMem hnone ht
  rw [hsymbol, hlocation, haddress, Nat.add_comm 1, Source.instructionTotal_of_ofLinesFrom hpre,
    Source.instructionTotal_of_ofLinesFrom hbefore]
  rw [haddress, Source.instructionTotal_of_ofLinesFrom hpre,
    Source.instructionTotal_of_ofLinesFrom hbefore] at hother
  have hdeclares : Source.Declares name first := by rw [Source.Declares, hcommand, ht]
  refine .repeatedLabel hraw rfl hdeclares (Source.not_declares_of_ofLinesFrom hpre hnone) hother ?_
  intro head r tail hsplit hdeclares
  obtain ⟨done, u, rest, hstatements, hhead, hu⟩ :=
    Statement.exists_statement_of_ofLinesFrom hdeclares (hsplit ▸ hbefore)
  have hsame := hconsistent.labelAddress_eq hstatements hu hpredefined
  rw [haddress, Source.instructionTotal_of_ofLinesFrom hpre,
    Source.instructionTotal_of_ofLinesFrom hhead] at hsame
  exact hsame.symm

end PointsAt

/-! ### Diagnostics -/

namespace PlacedAt

/-- The diagnostic of a malformed line. -/
theorem of_malformed (h : Statement.ofLine file (1 + front.length) raw = .error d) :
    ∃ column, PlacedAt settings file lines front raw column d := by
  obtain ⟨fault, hfault, rfl⟩ := Statement.ofLine_eq_error_iff.1 h
  refine ⟨fault.index + 1, ?_, rfl, ?_, ?_, .malformed hfault⟩
  · simp [Source.Fault.diagnostic, Location.atColumn, Nat.add_comm]
  · exact Nat.le_add_left 1 _
  · exact Nat.add_le_add_right (Statement.index_le_of_commandOf hfault) 1

/-- The diagnostic of a declaration that conflicts. -/
theorem of_conflict (hfront : Statement.ofLinesFrom file 1 front = .ok before)
    (hraw : Statement.ofLine file (1 + front.length) raw = .ok (some s))
    (hconsistent : Consistent before) (h : conflict? before s = some d) :
    PlacedAt settings file lines front raw 1 d := by
  obtain ⟨hcommand, hlocation, hsource⟩ := Statement.ofLine_eq_some_iff.1 hraw
  obtain ⟨name, existing, hs, hfind, hother, rfl⟩ := conflict?_eq_some_iff.1 h
  have hdeclares : Source.Declares name raw := by rw [Source.Declares, hcommand, hs]
  have hpoints : PointsAt settings file lines front raw
      (.duplicateSymbol name (instructionCount before) existing.address
        existing.location) 1 := by
    rw [find?_labelTable, find?_initial] at hfind
    cases hpredefined : Machine.predefined.lookup name with
    | some address =>
      obtain rfl : ⟨name, address, .predefined, none⟩ = existing := by
        simpa [hpredefined] using hfind
      rw [Source.instructionTotal_of_ofLinesFrom hfront] at hother ⊢
      exact .predefinedLabel hdeclares hpredefined hother
    | none =>
      obtain ⟨hnew, rfl⟩ : name ∈ newLabels before ∧ labelSymbol before name = existing := by
        simpa [hpredefined] using hfind
      obtain ⟨hmem, hfree⟩ := mem_newLabels_iff.1 hnew
      refine .of_labelSymbol hfront hdeclares hconsistent hmem hfree ?_
      exact fun heq => hother (congrArg Int.ofNat heq)
  refine ⟨?_, ?_, Nat.le_refl 1, Nat.le_add_left 1 _, hpoints⟩
  · rw [Symbol.conflict, hlocation, Nat.add_comm]
    rfl
  · rw [Symbol.conflict, hsource]

/-- The diagnostic of an instruction that fails. -/
theorem of_fault (hstatements : Statement.ofLines file lines = .ok statements)
    (hraw : Statement.ofLine file (1 + front.length) raw = .ok (some s))
    (h : fault? settings statements before s = some (.diagnosed d)) :
    ∃ column, PlacedAt settings file lines front raw column d := by
  obtain ⟨hcommand, hlocation, hsource⟩ := Statement.ofLine_eq_some_iff.1 hraw
  rw [Nat.add_comm] at hlocation
  rcases fault?_cases h with ⟨operand, hs, hwhy⟩ |
    ⟨fields, f, mnemonic, hs, hwritten, hunknown, hd⟩
  · have hoperand := Statement.operand_of_commandOf (hs ▸ hcommand)
    obtain ⟨hname, hne⟩ := Source.operand_eq_ok_iff.1 hoperand
    rcases hwhy with ⟨-, hd⟩ | ⟨-, hallocation⟩ | ⟨-, -, hlimit, hd⟩
    · cases hd
    · exact absurd hallocation (allocationFault?_ne_diagnosed _ _ d)
    · obtain rfl := Interruption.eq_of_ofDiagnostic hd.symm
      refine ⟨2, ?_, ?_, by omega, ?_, .addressRange hstatements hname.symm hlimit⟩
      · simp [Statement.diagnostic, Statement.faultPlace, hs, Command.faultColumn, hlocation,
          Location.atColumn]
      · rw [Statement.diagnostic, hsource]
      · have hlength := Statement.length_of_operand hoperand
        omega
  · have hfields := Statement.fields_of_commandOf (hs ▸ hcommand)
    rw [← hsource] at hfields
    obtain rfl := Interruption.eq_of_ofDiagnostic hd.symm
    obtain ⟨head, tail, hline, hlength⟩ := Fields.exists_line_eq hfields hwritten
    refine ⟨fields.start f + 1, ?_, ?_, by omega, ?_, ?_⟩
    · simp [Statement.diagnostic, Statement.faultPlace_unknown hs hfields hwritten, hlocation,
        Location.atColumn]
    · rw [Statement.diagnostic, hsource]
    · rw [← hsource, hline, ← hlength]
      simp
    · rw [hsource] at hfields hline
      refine .unknownMnemonic hfields hwritten hunknown ?_
      rw [hline, ← hlength, List.append_assoc, List.drop_left]
      exact List.prefix_append _ _

end PlacedAt

/-- Every diagnostic with which lines are refused is placed in one of them. -/
theorem Refused.exists_place (h : Refused settings file lines (.diagnosed d)) :
    ∃ front raw back column, lines = front ++ raw :: back ∧
      PlacedAt settings file lines front raw column d := by
  generalize hfailure : Failure.diagnosed d = failure at h
  cases h with
  | malformed hlines hfront hraw =>
    obtain rfl := Failure.eq_of_ofDiagnostic hfailure.symm
    obtain ⟨column, hplaced⟩ := PlacedAt.of_malformed hraw
    exact ⟨_, _, _, column, hlines, hplaced⟩
  | conflict hstatements hsplit hbefore hs =>
    obtain rfl := Failure.eq_of_ofDiagnostic hfailure.symm
    obtain ⟨front, raw, back, hlines, hfront, hraw⟩ :=
      Statement.exists_line_of_ofLinesFrom (hsplit ▸ hstatements)
    exact ⟨front, raw, back, 1, hlines, .of_conflict hfront hraw hbefore.1 hs⟩
  | unannouncedLabel => cases hfailure
  | @fault statements before after s i hstatements hlabels hsplit hbefore hs =>
    obtain rfl : i = .diagnosed d := by cases i <;> simp_all [Failure.ofInterruption]
    obtain ⟨front, raw, back, hlines, -, hraw⟩ :=
      Statement.exists_line_of_ofLinesFrom (hsplit ▸ hstatements)
    obtain ⟨column, hplaced⟩ := PlacedAt.of_fault hstatements hraw hs
    exact ⟨front, raw, back, column, hlines, hplaced⟩

/-! ### Messages -/

/-- The lines of a message: what is wrong, the source line behind four spaces, the caret below the
column, and the hint. -/
theorem PlacedAt.message_eq {column : Nat} (h : PlacedAt settings file lines front raw column d) :
    d.message = joinLines (d.headline :: (spaces 4 ++ trim raw) :: (spaces (4 + column - 1) ++ "^") ::
      Diagnostic.hintLines d.cause.hint) := by
  have hcolumn : (0 : Int) < column := by
    have := h.one_le_column
    omega
  have hcaret : Diagnostic.caretLine column = spaces (4 + column - 1) ++ "^" := by
    rw [Diagnostic.caretLine]
    congr 2
    simp only [Diagnostic.indent]
    omega
  rw [Diagnostic.message, h.location_eq, h.sourceLine_eq]
  simp only [Diagnostic.excerpt, if_pos hcolumn, hcaret]
  rfl

namespace Text

theorem mem_of_mem_trim {c : Char} {s : String} (h : c ∈ (trim s).toList) : c ∈ s.toList := by
  rw [trim, String.toList_ofList, trimWhile, List.mem_reverse] at h
  have hmem := List.mem_reverse.1 ((List.dropWhile_suffix _).mem h)
  exact (List.dropWhile_suffix _).mem hmem

/-- The lines of a text hold no line breaks. -/
theorem isLineBreak_of_mem_lines {line : String} (h : line ∈ Text.lines text) :
    ∀ c ∈ line.toList, isLineBreak c = false := by
  intro c hc
  obtain ⟨cs, hcs, rfl⟩ := List.mem_map.1 h
  rw [String.toList_ofList] at hc
  exact ((mem_flatten_splitLines rfl rfl).1 (List.mem_flatten_of_mem hcs hc)).2

end Text

namespace Assembler

/-- Every diagnostic of a text is placed in one of its lines, at a column within the line or directly
behind it, and points at its cause. The message quotes that line behind four spaces and shows a caret
below the column. -/
theorem assembleText_place (h : (a.assembleText file text).2 = .error (.diagnosed d)) :
    ∃ front raw back column, Text.lines text = front ++ raw :: back ∧
      PlacedAt a.settings file (Text.lines text) front raw column d ∧
      ∃ quoted caret, d.message =
          joinLines (d.headline :: quoted :: caret :: Diagnostic.hintLines d.cause.hint) ∧
        quoted.toList = List.replicate 4 ' ' ++ (trim raw).toList ∧
        caret.toList = List.replicate (4 + column - 1) ' ' ++ ['^'] ∧
        ∀ c ∈ quoted.toList, isLineBreak c = false := by
  rw [assembleText, assembleLines_eq_error_iff] at h
  obtain ⟨front, raw, back, column, hlines, hplaced⟩ := h.exists_place
  have hraw : raw ∈ Text.lines text := by
    rw [hlines]
    simp
  have hbreaks : ∀ c ∈ (trim raw).toList, isLineBreak c = false := fun c hc =>
    isLineBreak_of_mem_lines hraw c (mem_of_mem_trim hc)
  refine ⟨front, raw, back, column, hlines, hplaced, _, _, hplaced.message_eq, ?_, ?_, ?_⟩
  · simp [spaces]
  · simp [spaces]
  · intro c hc
    rw [String.toList_append, List.mem_append] at hc
    rcases hc with hspace | hline
    · rw [spaces, String.toList_ofList] at hspace
      rw [List.eq_of_mem_replicate hspace]
      rfl
    · exact hbreaks c hline

theorem assembleText_place_jump :
    let text := "D=0\n AM=M-1;JUMP // go"
    let d : Diagnostic := ⟨.unknownMnemonic "jump" "JUMP" ["JMP"], some ⟨"a.asm", 2, 8⟩,
      some "AM=M-1;JUMP // go"⟩
    ((Assembler.start .default).assembleText "a.asm" text).2 = .error (.diagnosed d) ∧
      ∃ front raw back column, Text.lines text = front ++ raw :: back ∧
        PlacedAt .default "a.asm" (Text.lines text) front raw column d ∧
        ∃ quoted caret, d.message =
            joinLines (d.headline :: quoted :: caret :: Diagnostic.hintLines d.cause.hint) ∧
          quoted.toList = List.replicate 4 ' ' ++ (trim raw).toList ∧
          caret.toList = List.replicate (4 + column - 1) ' ' ++ ['^'] ∧
          ∀ c ∈ quoted.toList, isLineBreak c = false := by
  intro text d
  have h : ((Assembler.start .default).assembleText "a.asm" text).2 = .error (.diagnosed d) := by
    decide +kernel
  exact ⟨h, assembleText_place h⟩

end Assembler

end HackToolchain
