import HackToolchain.Proofs.Program.Faults
import HackToolchain.Proofs.Source.Shape

/-!
# Columns of statements

A statement that is read from a line stands in that line: an operand and the name of a label behind
the first character, and the fields of a compute instruction one after the other up to the first
blank. The columns that the fields remember are those of their first characters, so the column at
which an unknown mnemonic is reported is where it is written.
-/

namespace HackToolchain

open Text

variable {line operand name mnemonic file raw : String} {fields : Fields} {f : Field}
variable {c : Command} {s : Statement} {number : Nat}

/-! ### Fields in their line -/

namespace Fields

/-- The number of characters before a field in the written form. -/
def start (fields : Fields) : Field → Nat
  | .dest => 0
  | .comp => fields.compStart
  | .jump => fields.compStart + fields.comp.toList.length + 1

/-- A field stands in the written form behind its start. -/
theorem exists_text_eq (h : fields.written? f = some mnemonic) : ∃ front back,
    fields.text.toList = front ++ mnemonic.toList ++ back ∧ front.length = fields.start f := by
  obtain ⟨dest, comp, jump, compColumn, jumpColumn⟩ := fields
  simp only [toList_text, start, compStart]
  cases f with
  | dest =>
    obtain rfl : dest = some mnemonic := h
    cases jump with
    | none => exact ⟨[], '=' :: comp.toList, by simp, rfl⟩
    | some jump => exact ⟨[], '=' :: comp.toList ++ ';' :: jump.toList, by simp, rfl⟩
  | comp =>
    obtain rfl : comp = mnemonic := Option.some.inj h
    exact ⟨_, _, rfl, by cases dest <;> simp⟩
  | jump =>
    obtain rfl : jump = some mnemonic := h
    cases dest with
    | none => exact ⟨comp.toList ++ [';'], [], by simp, by simp⟩
    | some dest =>
      exact ⟨dest.toList ++ '=' :: comp.toList ++ [';'], [], by simp, by simp; omega⟩

/-- A field stands in its line behind its start. -/
theorem exists_line_eq (hfields : Source.fields line = .ok fields)
    (h : fields.written? f = some mnemonic) : ∃ front back,
      line.toList = front ++ mnemonic.toList ++ back ∧ front.length = fields.start f := by
  obtain ⟨-, htext, -⟩ := Source.fieldsOfChars_eq_ok_iff.1 hfields
  obtain ⟨front, back, heq, hlength⟩ := exists_text_eq h
  -- The written form is followed by what stands behind the first blank.
  refine ⟨front, back ++ line.toList.dropWhile (fun c => !isBlank c), ?_, hlength⟩
  rw [← List.append_assoc, ← heq, htext, untilBlank_append_dropWhile]

theorem start_le (hfields : Source.fields line = .ok fields) (h : fields.written? f = some mnemonic) :
    fields.start f ≤ line.toList.length := by
  obtain ⟨front, back, hline, hlength⟩ := exists_line_eq hfields h
  rw [hline, ← hlength, List.append_assoc, List.length_append]
  exact Nat.le_add_right _ _

/-- Fields that are read from a line remember where the computation stands. -/
theorem compColumn_eq (h : Source.fields line = .ok fields) :
    fields.compColumn = fields.start .comp + 1 := by
  obtain ⟨-, -, hplaced⟩ := Source.fieldsOfChars_eq_ok_iff.1 h
  exact (congrArg Fields.compColumn hplaced).symm

/-- Fields that are read from a line remember where the jump stands. -/
theorem jumpColumn_eq (h : Source.fields line = .ok fields) :
    fields.jumpColumn = if fields.jump.isSome then (fields.start .jump : Int) + 1 else 0 := by
  obtain ⟨-, -, hplaced⟩ := Source.fieldsOfChars_eq_ok_iff.1 h
  exact (congrArg Fields.jumpColumn hplaced).symm

end Fields

/-- The column at which an unknown mnemonic is reported is that of its first character. -/
theorem Command.faultColumn_unknown {column : Int} (hfields : Source.fields line = .ok fields)
    (h : fields.written? f = some mnemonic) :
    (Command.compute fields).faultColumn column (f.unknown mnemonic) = fields.start f + 1 := by
  have hjump := Fields.jumpColumn_eq hfields
  cases f with
  | dest => rfl
  | comp => exact Fields.compColumn_eq hfields
  | jump =>
    rw [show fields.jump = some mnemonic from h, Option.isSome_some, if_pos rfl] at hjump
    have hne : fields.jumpColumn ≠ 0 := by omega
    simp only [Command.faultColumn, Field.unknown, Field.name]
    rw [if_neg (by decide), if_pos ⟨trivial, hne⟩, hjump]

/-! ### Statements in their line -/

namespace Statement

/-- A statement that is read from a line. -/
theorem ofLine_eq_some_iff : ofLine file number raw = .ok (some s) ↔
    commandOf (trim raw) = .ok (some s.command) ∧ s.location = ⟨file, number, 1⟩ ∧
      s.source = trim raw := by
  rw [ofLine_eq_ok_iff]
  constructor
  · rintro ⟨command, hcommand, hs⟩
    obtain ⟨c, rfl, rfl⟩ := Option.map_eq_some_iff.1 hs.symm
    exact ⟨hcommand, rfl, rfl⟩
  · rintro ⟨hcommand, hlocation, hsource⟩
    refine ⟨_, hcommand, ?_⟩
    rw [Option.map_some, ← hlocation, ← hsource]

/-- A statement of a source is that of its line. -/
theorem commandOf_source {lines : List String} {statements before after : List Statement}
    (h : ofLines file lines = .ok statements) (hsplit : statements = before ++ s :: after) :
    commandOf s.source = .ok (some s.command) := by
  obtain ⟨front, raw, back, -, -, hraw⟩ := exists_line_of_ofLinesFrom (hsplit ▸ h)
  obtain ⟨hcommand, -, hsource⟩ := ofLine_eq_some_iff.1 hraw
  rwa [hsource]

theorem operand_of_commandOf (h : commandOf line = .ok (some (.addressLoad operand))) :
    Source.operand line = .ok operand := by
  rw [commandOf] at h
  cases hkind : LineKind.of line <;> simp [hkind, map_eq_ok_iff] at h
  exact h

/-- An operand is not empty, and it stands behind the first character. -/
theorem length_of_operand (h : Source.operand line = .ok operand) : 2 ≤ line.toList.length := by
  obtain ⟨hname, hne⟩ := Source.operand_eq_ok_iff.1 h
  rw [hname] at hne
  have hlength := (List.takeWhile_prefix (l := line.toList.drop 1) fun c => !isBlank c).length_le
  have hpos := List.length_pos_of_ne_nil hne
  rw [List.length_drop] at hlength
  rw [untilBlank] at hpos
  omega

theorem fields_of_commandOf (h : commandOf line = .ok (some (.compute fields))) :
    Source.fields line = .ok fields := by
  rw [commandOf] at h
  cases hkind : LineKind.of line <;> simp [hkind, map_eq_ok_iff] at h
  exact h

/-- An unknown mnemonic is reported at its first character. -/
theorem faultPlace_unknown (hs : s.command = .compute fields)
    (hfields : Source.fields s.source = .ok fields) (h : fields.written? f = some mnemonic) :
    s.faultPlace (f.unknown mnemonic) = s.location.atColumn (fields.start f + 1) := by
  rw [faultPlace, hs, Command.faultColumn_unknown hfields h]

/-- An unknown mnemonic is reported within the line or directly behind it. -/
theorem column_faultPlace_unknown (hs : s.command = .compute fields)
    (hfields : Source.fields s.source = .ok fields) (h : fields.written? f = some mnemonic) :
    (s.faultPlace (f.unknown mnemonic)).column = fields.start f + 1 ∧
      fields.start f ≤ s.source.toList.length := by
  obtain ⟨front, back, hline, hlength⟩ := Fields.exists_line_eq hfields h
  rw [faultPlace_unknown hs hfields h, hline, ← hlength]
  refine ⟨rfl, ?_⟩
  simp only [List.length_append]
  omega

/-- An address is reported at the first character of the operand. -/
theorem column_faultPlace_addressLoad {cause : Cause} (hs : s.command = .addressLoad operand)
    (hoperand : Source.operand s.source = .ok operand) :
    (s.faultPlace cause).column = 2 ∧ 2 ≤ s.source.toList.length := by
  rw [faultPlace, hs]
  exact ⟨rfl, length_of_operand hoperand⟩

end Statement

end HackToolchain
