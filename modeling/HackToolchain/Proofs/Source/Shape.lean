import HackToolchain.Proofs.Source.ComputeText
import HackToolchain.Proofs.Text.Layout
import HackToolchain.Source.Statement

/-!
# The shape of source lines

A line holds a statement if it has the shape of its kind: an operand behind the at sign, a name and a
closing parenthesis behind the opening one, or the written form of some fields up to the first blank.
Any other line that is not skipped is malformed. The statements of a list of lines are those of its
lines, one after the other, and the first malformed line is the one that is reported.
-/

namespace HackToolchain

open Text

variable {line name file raw : String} {cs : List Char} {number : Nat} {raws front back : List String}
variable {statements before after : List Statement} {s : Statement} {d : Diagnostic}

/-! ### Results -/

section Results

variable {ε α β : Type} {x : Except ε α} {g : α → β} {value : β} {e : ε}

instance decidableEqExcept [DecidableEq ε] [DecidableEq α] : DecidableEq (Except ε α)
  | .ok a, .ok b => decidable_of_iff (a = b) ⟨congrArg Except.ok, Except.ok.inj⟩
  | .error e, .error f => decidable_of_iff (e = f) ⟨congrArg Except.error, Except.error.inj⟩
  | .ok _, .error _ => isFalse nofun
  | .error _, .ok _ => isFalse nofun

theorem not_exists_error_iff : (∃ e, x = .error e) ↔ ¬ ∃ value, x = .ok value := by
  cases x <;> simp

theorem map_eq_error_iff : x.map g = .error e ↔ x = .error e := by
  cases x <;> simp [Except.map]

theorem map_eq_ok_iff : x.map g = .ok value ↔ ∃ a, x = .ok a ∧ g a = value := by
  cases x <;> simp [Except.map]

end Results

namespace Source

variable {fault : Fault} {fields : Fields}

/-! ### What is read from a line -/

/-- An operand is the text behind the first character up to a blank. -/
theorem operand_eq_ok_iff : operand line = .ok name ↔
    name.toList = untilBlank (line.toList.drop 1) ∧ name.toList ≠ [] := by
  rw [operand]
  cases huntil : untilBlank (line.toList.drop 1) with
  | nil => simp
  | cons c cs =>
    simp only [Except.ok.injEq]
    constructor
    · rintro rfl
      simp
    · rintro ⟨hname, -⟩
      rw [← hname, String.ofList_toList]

/-- The name of a label stands behind the first character and before the first closing
parenthesis. -/
theorem labelName_eq_ok_iff : labelName line = .ok name ↔
    (∃ rest, line.toList.drop 1 = name.toList ++ ')' :: rest) ∧ ')' ∉ name.toList ∧
      name.toList ≠ [] := by
  have htake (front rest : List Char) (hfront : ')' ∉ front) :
      (front ++ ')' :: rest).takeWhile (· ≠ ')') = front := by
    rw [List.takeWhile_append_of_pos]
    · simp
    · intro c hc
      simpa using fun heq : c = ')' => hfront (heq ▸ hc)
  rw [labelName]
  by_cases hclosed : ')' ∈ line.toList.drop 1
  · obtain ⟨front, rest, hsplit, hfront⟩ := List.eq_append_cons_of_mem hclosed
    rw [hsplit, if_pos (by simp), htake front rest hfront]
    cases front with
    | nil =>
      -- A name before the parenthesis would begin with it.
      simp only [List.nil_append, reduceCtorEq, false_iff]
      rintro ⟨⟨rest', heq⟩, hname, hne⟩
      obtain ⟨c, cs, hcs⟩ := List.exists_cons_of_ne_nil hne
      rw [hcs, List.cons_append, List.cons.injEq] at heq
      rw [hcs, ← heq.1] at hname
      simp at hname
    | cons c cs =>
      simp only [Except.ok.injEq]
      constructor
      · rintro rfl
        simpa using hfront
      · rintro ⟨⟨rest', heq⟩, hname, -⟩
        have hsame := congrArg (List.takeWhile (· ≠ ')')) heq
        rw [htake _ _ hfront, htake _ _ hname] at hsame
        rw [hsame, String.ofList_toList]
  · rw [if_neg (by simpa using hclosed)]
    simp only [reduceCtorEq, false_iff]
    rintro ⟨⟨rest, hsplit⟩, -⟩
    rw [hsplit] at hclosed
    simp at hclosed

/-- Some fields are read from a line exactly if the text up to its first blank is the written form of
fields. -/
theorem exists_fields_eq_ok_iff : (∃ fields, Source.fields line = .ok fields) ↔
    ∃ fields : Fields, fields.WellFormed ∧ fields.text.toList = untilBlank line.toList := by
  simp only [Source.fields, fieldsOfChars_eq_ok_iff]
  constructor
  · rintro ⟨fields, hform, htext, -⟩
    exact ⟨fields, hform, htext⟩
  · rintro ⟨fields, hform, htext⟩
    -- The written form does not show the columns, so these can be put right.
    exact ⟨fields.placed, ⟨hform.comp, hform.dest, hform.jump⟩, htext, rfl⟩

/-! ### Malformed lines -/

/-- A line without outer blanks that is not skipped and does not have the shape of its kind. -/
def IsMalformed (line : String) : Prop :=
  match LineKind.of line with
  | .skip => False
  | .addressLoad => untilBlank (line.toList.drop 1) = []
  | .label => ¬ ∃ name rest, line.toList.drop 1 = name ++ ')' :: rest ∧ ')' ∉ name ∧ name ≠ []
  | .compute =>
    ¬ ∃ fields : Fields, fields.WellFormed ∧ fields.text.toList = untilBlank line.toList

/-- A fault of a jump shows within the text or directly behind it. -/
theorem index_le_of_jumpFrom {dest : Option String} {comp : String} {compStart start : Nat}
    (h : jumpFrom dest comp compStart start cs = .error fault) :
    fault.index ≤ start + cs.length := by
  have hlength : (segment cs).length ≤ cs.length := (List.takeWhile_prefix _).length_le
  rcases afterSegment_cases cs with ⟨-, -, hparts⟩ | ⟨rest, hafter, -⟩ | ⟨rest, hafter, -⟩
  · rw [jumpFrom_of_forall hparts] at h
    split at h
    · obtain rfl := Except.error.inj h
      exact Nat.le_add_right _ _
    · simp at h
  · rw [jumpFrom_equals hafter] at h
    obtain rfl := Except.error.inj h
    exact Nat.add_le_add_left hlength start
  · rw [jumpFrom_semicolon hafter] at h
    obtain rfl := Except.error.inj h
    exact Nat.add_le_add_left hlength start

/-- A fault of a comp shows in it, or in the jump behind it. -/
theorem index_le_of_compFrom {dest : Option String} {start : Nat}
    (h : compFrom dest start cs = .error fault) : fault.index ≤ start + cs.length := by
  rcases afterSegment_cases cs with ⟨-, -, hparts⟩ | ⟨rest, hafter, -⟩ | ⟨rest, hafter, hjoin⟩
  · rw [compFrom_of_forall hparts] at h
    split at h
    · obtain rfl := Except.error.inj h
      exact Nat.le_add_right _ _
    · simp at h
  · rw [compFrom_equals hafter] at h
    obtain rfl := Except.error.inj h
    exact Nat.add_le_add_left (List.takeWhile_prefix _).length_le start
  · rw [compFrom_semicolon hafter] at h
    split at h
    · obtain rfl := Except.error.inj h
      exact Nat.le_add_right _ _
    · have hindex := index_le_of_jumpFrom h
      have hlength := congrArg List.length hjoin
      simp only [List.length_append, List.length_cons] at hlength
      omega

/-- A fault shows in the text up to the first blank or directly behind it. -/
theorem index_le_of_fieldsOfChars (h : fieldsOfChars cs = .error fault) :
    fault.index ≤ cs.length := by
  by_cases hequals : ∃ rest, afterSegment cs = '=' :: rest
  · obtain ⟨rest, hafter⟩ := hequals
    rw [fieldsOfChars_equals hafter] at h
    split at h
    · obtain rfl := Except.error.inj h
      exact Nat.zero_le _
    · have hindex := index_le_of_compFrom h
      have hlength := congrArg List.length (segment_append_afterSegment cs)
      rw [hafter, List.length_append, List.length_cons] at hlength
      omega
  · rw [fieldsOfChars_of_ne fun rest hafter => hequals ⟨rest, hafter⟩] at h
    have hindex := index_le_of_compFrom h
    omega

end Source

namespace Statement

variable {fault : Source.Fault} {statement : Option Statement}

/-- A line holds no statement exactly if it is malformed. -/
theorem exists_commandOf_error_iff :
    (∃ fault, commandOf line = .error fault) ↔ Source.IsMalformed line := by
  rw [commandOf, Source.IsMalformed]
  cases LineKind.of line with
  | skip => simp
  | addressLoad =>
    simp only [map_eq_error_iff, not_exists_error_iff, Source.operand_eq_ok_iff]
    constructor
    · intro h
      by_contra hne
      exact h ⟨String.ofList (untilBlank (line.toList.drop 1)), by simpa using hne⟩
    · rintro hnil ⟨name, hname, hne⟩
      exact hne (hname.trans hnil)
  | label =>
    simp only [map_eq_error_iff, not_exists_error_iff, Source.labelName_eq_ok_iff]
    refine not_congr ⟨?_, ?_⟩
    · rintro ⟨name, ⟨rest, hsplit⟩, hname⟩
      exact ⟨name.toList, rest, hsplit, hname⟩
    · rintro ⟨name, rest, hsplit, hname⟩
      exact ⟨String.ofList name, by simpa only [String.toList_ofList] using ⟨⟨rest, hsplit⟩, hname⟩⟩
  | compute =>
    simp only [map_eq_error_iff, not_exists_error_iff, Source.exists_fields_eq_ok_iff]

/-- An at sign and a text without blanks load that text. -/
theorem commandOf_addressLoad (hsolid : IsSolid name.toList) (hne : name.toList ≠ []) :
    commandOf ("@" ++ name) = .ok (some (.addressLoad name)) := by
  have hline : ("@" ++ name).toList = '@' :: name.toList := by
    rw [String.toList_append]
    rfl
  have hoperand : Source.operand ("@" ++ name) = .ok name := by
    rw [Source.operand_eq_ok_iff, hline, List.drop_succ_cons, List.drop_zero,
      untilBlank_of_isSolid hsolid]
    exact ⟨rfl, hne⟩
  rw [commandOf, LineKind.of, hline]
  simp only [hoperand]
  rfl

/-- A line that begins with a compute instruction, and not as another kind of line does. -/
theorem commandOf_fields {fields : Fields} (hform : fields.WellFormed)
    (hline : untilBlank line.toList = fields.text.toList)
    (hstart : ∀ c ∈ line.toList.head?, c ≠ '/' ∧ c ≠ '@' ∧ c ≠ '(') :
    commandOf line = .ok (some (.compute fields.placed)) := by
  have hfields : Source.fields line = .ok fields.placed := by
    rw [Source.fields, hline]
    exact Source.fieldsOfChars_eq_ok_iff.2 ⟨⟨hform.comp, hform.dest, hform.jump⟩, rfl, rfl⟩
  cases hcs : line.toList with
  | nil =>
    rw [hcs] at hline
    exact absurd hline.symm hform.text_ne_nil
  | cons c cs =>
    obtain ⟨hslash, hat, hparen⟩ := hstart c (by rw [hcs]; rfl)
    rw [commandOf, LineKind.of, hcs]
    simp only [if_neg hslash, if_neg hat, if_neg hparen, hfields]
    rfl

theorem one_le_length_of_kind (h : LineKind.of line ≠ .skip) : 1 ≤ line.toList.length := by
  rw [LineKind.of] at h
  cases hline : line.toList with
  | nil => simp [hline] at h
  | cons c cs => simp

/-- A fault shows within its line or directly behind it. -/
theorem index_le_of_commandOf (h : commandOf line = .error fault) :
    fault.index ≤ line.toList.length := by
  rw [commandOf] at h
  cases hkind : LineKind.of line with
  | skip => simp [hkind] at h
  | addressLoad =>
    simp only [hkind, map_eq_error_iff] at h
    rw [Source.operand] at h
    split at h
    · obtain rfl := Except.error.inj h
      exact one_le_length_of_kind (by simp [hkind])
    · simp at h
  | label =>
    simp only [hkind, map_eq_error_iff, Source.labelName] at h
    split at h
    · split at h
      · obtain rfl := Except.error.inj h
        exact one_le_length_of_kind (by simp [hkind])
      · simp at h
    · obtain rfl := Except.error.inj h
      exact Nat.le_refl _
  | compute =>
    simp only [hkind, map_eq_error_iff] at h
    exact (Source.index_le_of_fieldsOfChars h).trans (List.takeWhile_prefix _).length_le

/-! ### The statements of some lines -/

theorem ofLine_eq_ok_iff : ofLine file number raw = .ok statement ↔
    ∃ command, commandOf (trim raw) = .ok command ∧
      statement = command.map fun c => ⟨⟨file, number, 1⟩, trim raw, c⟩ := by
  rw [ofLine]
  cases commandOf (trim raw) <;> simp [eq_comm]

/-- The line of an address load is read as it is written. -/
theorem ofLine_addressLoad (file : String) (number : Nat) (hsolid : IsSolid name.toList)
    (hne : name.toList ≠ []) : ofLine file number ("@" ++ name) =
      .ok (some ⟨⟨file, number, 1⟩, "@" ++ name, .addressLoad name⟩) := by
  have hline : IsSolid ("@" ++ name).toList := by
    rw [String.toList_append, isSolid_append]
    exact ⟨isSolid_cons.2 ⟨rfl, isSolid_nil⟩, hsolid⟩
  rw [ofLine_eq_ok_iff, trim_of_isSolid hline]
  exact ⟨_, commandOf_addressLoad hsolid hne, rfl⟩

theorem ofLine_eq_error_iff : ofLine file number raw = .error d ↔
    ∃ fault, commandOf (trim raw) = .error fault ∧
      d = fault.diagnostic (some ⟨file, number, 1⟩) (trim raw) := by
  rw [ofLine]
  cases commandOf (trim raw) <;> simp [eq_comm]

theorem exists_ofLine_error_iff (file : String) (number : Nat) :
    (∃ d, ofLine file number raw = .error d) ↔ Source.IsMalformed (trim raw) := by
  simp only [ofLine_eq_error_iff, ← exists_commandOf_error_iff]
  constructor
  · rintro ⟨_, fault, hfault, -⟩
    exact ⟨fault, hfault⟩
  · rintro ⟨fault, hfault⟩
    exact ⟨_, fault, hfault, rfl⟩

/-- Whether the statements of some lines are read is decided by the first line and by the others. -/
theorem ofLinesFrom_cons_eq_ok_iff : ofLinesFrom file number (raw :: raws) = .ok statements ↔
    ∃ statement behind, ofLine file number raw = .ok statement ∧
      ofLinesFrom file (number + 1) raws = .ok behind ∧ statements = statement.toList ++ behind := by
  rw [ofLinesFrom]
  cases ofLine file number raw with
  | error d => simp
  | ok statement => cases ofLinesFrom file (number + 1) raws <;> simp [eq_comm]

theorem ofLinesFrom_cons_eq_error_iff : ofLinesFrom file number (raw :: raws) = .error d ↔
    ofLine file number raw = .error d ∨
      ¬ Source.IsMalformed (trim raw) ∧ ofLinesFrom file (number + 1) raws = .error d := by
  rw [ofLinesFrom, ← exists_ofLine_error_iff file number]
  cases ofLine file number raw with
  | error e => simp
  | ok statement => cases ofLinesFrom file (number + 1) raws <;> simp

/-- All lines hold statements exactly if none is malformed. -/
theorem exists_ofLinesFrom_iff (file : String) (number : Nat) :
    (∃ statements, ofLinesFrom file number raws = .ok statements) ↔
      ∀ raw ∈ raws, ¬ Source.IsMalformed (trim raw) := by
  induction raws generalizing number with
  | nil => simp [ofLinesFrom]
  | cons raw raws ih =>
    rw [List.forall_mem_cons, ← exists_ofLine_error_iff file number,
      ← ih (number + 1), ofLinesFrom]
    cases ofLine file number raw with
    | error d => simp
    | ok statement => cases ofLinesFrom file (number + 1) raws <;> simp

/-- A place behind one more line. -/
theorem add_length_cons (number : Nat) (raw : String) (front : List String) :
    number + (raw :: front).length = number + 1 + front.length := by
  rw [List.length_cons, Nat.add_comm front.length, Nat.add_assoc]

/-- The first malformed line is reported. -/
theorem ofLinesFrom_eq_error_iff : ofLinesFrom file number raws = .error d ↔
    ∃ front raw back, raws = front ++ raw :: back ∧
      (∀ raw ∈ front, ¬ Source.IsMalformed (trim raw)) ∧
        ofLine file (number + front.length) raw = .error d := by
  -- The number of the first line goes along: it grows with the lines that are read before.
  induction raws generalizing number with
  | nil => simp [ofLinesFrom]
  | cons first raws ih =>
    rw [ofLinesFrom_cons_eq_error_iff, ih]
    constructor
    · rintro (hfirst | ⟨hfirst, front, raw, back, rfl, hfront, hraw⟩)
      · exact ⟨[], first, raws, rfl, by simp, hfirst⟩
      · refine ⟨first :: front, raw, back, rfl, List.forall_mem_cons.2 ⟨hfirst, hfront⟩, ?_⟩
        rwa [add_length_cons]
    · rintro ⟨front, raw, back, hsplit, hfront, hraw⟩
      cases front with
      | nil =>
        obtain ⟨rfl, -⟩ := List.cons.inj hsplit
        exact .inl hraw
      | cons r front =>
        obtain ⟨rfl, rfl⟩ := List.cons.inj hsplit
        rw [add_length_cons] at hraw
        obtain ⟨hfirst, hrest⟩ := List.forall_mem_cons.1 hfront
        exact .inr ⟨hfirst, front, raw, back, rfl, hrest, hraw⟩

/-- The line of a statement. The statements before it are those of the lines before. -/
theorem exists_line_of_ofLinesFrom
    (h : ofLinesFrom file number raws = .ok (before ++ s :: after)) :
    ∃ front raw back, raws = front ++ raw :: back ∧ ofLinesFrom file number front = .ok before ∧
      ofLine file (number + front.length) raw = .ok (some s) := by
  induction raws generalizing number before with
  | nil => simp [ofLinesFrom] at h
  | cons first raws ih =>
    obtain ⟨statement, behind, hfirst, hbehind, hsplit⟩ := ofLinesFrom_cons_eq_ok_iff.1 h
    -- The statement is found behind the first line, unless it is the one that the first line holds.
    have hlater (more : List Statement) (hmore : behind = more ++ s :: after)
        (hbefore : before = statement.toList ++ more) :
        ∃ front raw back, first :: raws = front ++ raw :: back ∧
          ofLinesFrom file number front = .ok before ∧
            ofLine file (number + front.length) raw = .ok (some s) := by
      obtain ⟨front, raw, back, rfl, hfront, hraw⟩ := ih (hmore ▸ hbehind)
      refine ⟨first :: front, raw, back, rfl, ?_, by rwa [add_length_cons]⟩
      exact ofLinesFrom_cons_eq_ok_iff.2 ⟨statement, more, hfirst, hfront, hbefore⟩
    cases statement with
    | none => exact hlater before hsplit.symm rfl
    | some t =>
      cases before with
      | nil =>
        obtain ⟨rfl, -⟩ := List.cons.inj hsplit
        exact ⟨[], first, raws, rfl, rfl, hfirst⟩
      | cons b before =>
        obtain ⟨rfl, hmore⟩ := List.cons.inj hsplit
        exact hlater before hmore.symm rfl

/-- The statement of a line. The statements before it are those of the lines before. -/
theorem exists_statement_of_ofLinesFrom {c : Command} (hraw : commandOf (trim raw) = .ok (some c))
    (h : ofLinesFrom file number (front ++ raw :: back) = .ok statements) :
    ∃ before s after, statements = before ++ s :: after ∧
      ofLinesFrom file number front = .ok before ∧ s.command = c := by
  induction front generalizing number statements with
  | nil =>
    obtain ⟨statement, behind, hfirst, -, rfl⟩ := ofLinesFrom_cons_eq_ok_iff.1 h
    obtain ⟨command, hcommand, rfl⟩ := ofLine_eq_ok_iff.1 hfirst
    obtain rfl := Except.ok.inj (hraw.symm.trans hcommand)
    exact ⟨[], _, behind, rfl, rfl, rfl⟩
  | cons first front ih =>
    obtain ⟨statement, behind, hfirst, hbehind, rfl⟩ := ofLinesFrom_cons_eq_ok_iff.1 h
    obtain ⟨before, s, after, rfl, hbefore, hs⟩ := ih hbehind
    refine ⟨statement.toList ++ before, s, after, (List.append_assoc _ _ _).symm, ?_, hs⟩
    exact ofLinesFrom_cons_eq_ok_iff.2 ⟨statement, before, hfirst, hbefore, rfl⟩

end Statement

end HackToolchain
