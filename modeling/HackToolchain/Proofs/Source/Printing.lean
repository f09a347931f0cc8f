import HackToolchain.Proofs.Source.Shape

/-!
# Printed programs

A command is printed on a line of its own, and reading the line gives the command back, with the
columns that its fields have in print. So a program that is printed line by line is read as it was,
and it still is when blanks are put around the lines, and blank lines and comments between them.
-/

namespace HackToolchain

open Text

variable {file raw : String} {c : Command} {n : Nat} {raws : List String}
variable {numbered : List (Command × Nat)} {commands : List Command}

/-! ### Printing -/

/-- The line of a command. A remark has nothing to say. -/
def Command.text : Command → String
  | addressLoad operand => "@" ++ operand
  | compute fields => fields.text
  | label name => "(" ++ name ++ ")"
  | remark => ""

/-- Commands that can be told from their lines. -/
inductive Command.IsPrintable : Command → Prop where
  | addressLoad (operand : String) (ne : operand.toList ≠ []) (solid : IsSolid operand.toList) :
    IsPrintable (.addressLoad operand)
  | compute (fields : Fields) (form : fields.WellFormed) (solid : IsSolid fields.text.toList)
      (start : ∀ x ∈ fields.text.toList.head?, x ≠ '/' ∧ x ≠ '@' ∧ x ≠ '(') :
    IsPrintable (.compute fields)
  | label (name : String) (ne : name.toList ≠ []) (closed : ')' ∉ name.toList)
      (unbroken : ∀ x ∈ name.toList, isLineBreak x = false) :
    IsPrintable (.label name)

/-- The command with the columns of its line. -/
def Command.placed : Command → Command
  | compute fields => compute fields.placed
  | other => other

/-- The statements of commands that are printed on lines with the given numbers. -/
def Statement.printed (file : String) (numbered : List (Command × Nat)) : List Statement :=
  numbered.map fun line => ⟨⟨file, line.2, 1⟩, line.1.text, line.1.placed⟩

namespace Command.IsPrintable

/-- A printed line neither begins nor ends with a blank, and no line ends in it. -/
theorem text_ends (h : c.IsPrintable) : c.text.toList ≠ [] ∧
    (∀ x ∈ c.text.toList.head?, isBlank x = false) ∧
    (∀ x ∈ c.text.toList.getLast?, isBlank x = false) ∧
    ∀ x ∈ c.text.toList, isLineBreak x = false := by
  cases h with
  | addressLoad operand ne solid =>
    have hsolid : IsSolid (Command.addressLoad operand).text.toList := by
      rw [text, String.toList_append, isSolid_append]
      exact ⟨by decide, solid⟩
    have hne : (Command.addressLoad operand).text.toList ≠ [] := by
      rw [text, String.toList_append]
      simp
    exact ⟨hne, fun x hx => hsolid x (List.mem_of_head? hx),
      fun x hx => hsolid x (List.mem_of_getLast? hx), isLineBreak_of_isSolid hsolid⟩
  | compute fields form solid start =>
    exact ⟨form.text_ne_nil, fun x hx => solid x (List.mem_of_head? hx),
      fun x hx => solid x (List.mem_of_getLast? hx), isLineBreak_of_isSolid solid⟩
  | label name ne closed unbroken =>
    -- The parentheses keep the blanks of the name inside.
    have htext : (Command.label name).text.toList = '(' :: name.toList ++ [')'] := by
      rw [text, String.toList_append, String.toList_append]
      rfl
    rw [htext]
    refine ⟨by simp, ?_, ?_, ?_⟩
    · rintro x ⟨⟩
      rfl
    · rw [List.getLast?_append]
      rintro x ⟨⟩
      rfl
    · intro x hx
      rw [List.mem_append, List.mem_cons, List.mem_singleton] at hx
      rcases hx with (rfl | hx) | rfl
      · rfl
      · exact unbroken x hx
      · rfl

end Command.IsPrintable

/-- The line of a command is read as the command. -/
theorem Statement.commandOf_text (h : c.IsPrintable) : commandOf c.text = .ok (some c.placed) := by
  cases h with
  | addressLoad operand ne solid => exact commandOf_addressLoad solid ne
  | compute fields form solid start => exact commandOf_fields form (untilBlank_of_isSolid solid) start
  | label name ne closed unbroken =>
    have htext : (Command.label name).text.toList = '(' :: (name.toList ++ [')']) := by
      rw [Command.text, String.toList_append, String.toList_append]
      rfl
    have hname : Source.labelName (Command.label name).text = .ok name := by
      apply Source.labelName_eq_ok_iff.2
      rw [htext]
      exact ⟨⟨[], rfl⟩, closed, ne⟩
    rw [commandOf, LineKind.of, htext]
    simp only [hname]
    rfl

/-! ### Layout -/

namespace Source

/-- A line without breaks that holds blanks only or a comment. -/
def IsSkipped (raw : String) : Prop :=
  (∀ x ∈ raw.toList, isLineBreak x = false) ∧ ∀ x ∈ (raw.toList.dropWhile isBlank).head?, x = '/'

instance : Decidable (IsSkipped raw) :=
  @instDecidableAnd _ _ (List.decidableBAll _ _) (Option.decidableForallMem _)

/-- Blanks that end no line. -/
def IsMargin (cs : List Char) : Prop :=
  ∀ x ∈ cs, isBlank x = true ∧ isLineBreak x = false

instance {cs : List Char} : Decidable (IsMargin cs) :=
  List.decidableBAll (fun x => isBlank x = true ∧ isLineBreak x = false) cs

/-- The lines, of which the first has the given number, hold the commands in order, each with the
number of its line. -/
inductive LaysOut : Nat → List (Command × Nat) → List String → Prop where
  | nil (n : Nat) : LaysOut n [] []
  | skipped {n : Nat} {numbered : List (Command × Nat)} {raws : List String} (raw : String)
      (skip : IsSkipped raw) (behind : LaysOut (n + 1) numbered raws) :
    LaysOut n numbered (raw :: raws)
  | command {n : Nat} {numbered : List (Command × Nat)} {raws : List String} {raw : String}
      (c : Command) (front back : String) (line : raw = front ++ c.text ++ back)
      (left : IsMargin front.toList) (right : IsMargin back.toList)
      (behind : LaysOut (n + 1) numbered raws) :
    LaysOut n ((c, n) :: numbered) (raw :: raws)

theorem commandOf_of_isSkipped (h : IsSkipped raw) : Statement.commandOf (trim raw) = .ok none := by
  have hkind : LineKind.of (trim raw) = .skip := by
    have hhead := h.2
    rw [← head?_trim] at hhead
    rw [LineKind.of]
    cases hcs : (trim raw).toList with
    | nil => rfl
    | cons c cs => simp [hhead c (by rw [hcs]; rfl)]
  rw [Statement.commandOf, hkind]

theorem LaysOut.unbroken (h : LaysOut n numbered raws)
    (hprintable : ∀ line ∈ numbered, line.1.IsPrintable) :
    ∀ raw ∈ raws, ∀ x ∈ raw.toList, isLineBreak x = false := by
  induction h with
  | nil n => simp
  | skipped raw skip behind ih => exact List.forall_mem_cons.2 ⟨skip.1, ih hprintable⟩
  | command c front back line left right behind ih =>
    obtain ⟨hc, hbehind⟩ := List.forall_mem_cons.1 hprintable
    refine List.forall_mem_cons.2 ⟨?_, ih hbehind⟩
    intro x hx
    rw [line, String.toList_append, String.toList_append, List.mem_append, List.mem_append] at hx
    rcases hx with (hx | hx) | hx
    · exact (left x hx).2
    · exact hc.text_ends.2.2.2 x hx
    · exact (right x hx).2

/-- The margins of a line are taken off. -/
theorem trim_of_margins {front back : String} (hc : c.IsPrintable) (left : IsMargin front.toList)
    (right : IsMargin back.toList) : trim (front ++ c.text ++ back) = c.text := by
  obtain ⟨hne, hfirst, hlast, -⟩ := hc.text_ends
  have htext : (front ++ c.text ++ back).toList =
      front.toList ++ c.text.toList ++ back.toList := by
    rw [String.toList_append, String.toList_append]
  rw [trim_of_surrounded htext hne (fun x hx => (left x hx).1) (fun x hx => (right x hx).1) hfirst
    hlast, String.ofList_toList]

/-- Commands below each other are laid out. -/
theorem laysOut_map_text (commands : List Command) (n : Nat) :
    LaysOut n (commands.zipIdx n) (commands.map (·.text)) := by
  induction commands generalizing n with
  | nil => exact .nil n
  | cons c commands ih =>
    exact .command c "" "" (by rw [String.empty_append, String.append_empty]) (by decide)
      (by decide) (ih (n + 1))

end Source

namespace Statement

/-- The statements of a program that is laid out on lines. -/
theorem ofLinesFrom_of_laysOut (hprintable : ∀ line ∈ numbered, line.1.IsPrintable)
    (h : Source.LaysOut n numbered raws) :
    ofLinesFrom file n raws = .ok (printed file numbered) := by
  induction h with
  | nil n => rfl
  | skipped raw skip behind ih =>
    rw [ofLinesFrom, ofLine, Source.commandOf_of_isSkipped skip, ih hprintable]
    rfl
  | command c front back line left right behind ih =>
    obtain ⟨hc, hbehind⟩ := List.forall_mem_cons.1 hprintable
    rw [line, ofLinesFrom, ofLine, Source.trim_of_margins hc left right, commandOf_text hc, ih hbehind]
    rfl

theorem ofLinesFrom_concat_empty : ofLinesFrom file n (raws ++ [""]) = ofLinesFrom file n raws := by
  induction raws generalizing n with
  | nil => rfl
  | cons raw raws ih => rw [List.cons_append, ofLinesFrom, ofLinesFrom, ih]

/-- A program that is laid out is read from the text of its lines. -/
theorem ofText_of_laysOut (hprintable : ∀ line ∈ numbered, line.1.IsPrintable)
    (h : Source.LaysOut 1 numbered raws) :
    ofText file (joinLines raws) = .ok (printed file numbered) := by
  rw [← ofLinesFrom_of_laysOut hprintable h, ofText, ofLines]
  rcases lines_joinLines_cases (h.unbroken hprintable) with hlines | hlines
  · rw [hlines]
  · -- An empty last line is lost, and it holds no statement.
    rw [← ofLinesFrom_concat_empty, hlines]

/-- Reading undoes printing. -/
theorem ofText_printed (hprintable : ∀ c ∈ commands, c.IsPrintable) (file : String) :
    ofText file (joinLines (commands.map (·.text))) = .ok (printed file (commands.zipIdx 1)) ∧
    ∀ numbered raws, numbered.map (·.1) = commands → Source.LaysOut 1 numbered raws →
      ofText file (joinLines raws) = .ok (printed file numbered) := by
  have hlaid (numbered : List (Command × Nat)) (raws : List String)
      (hcommands : numbered.map (·.1) = commands) (h : Source.LaysOut 1 numbered raws) :
      ofText file (joinLines raws) = .ok (printed file numbered) := by
    apply ofText_of_laysOut _ h
    intro line hline
    exact hprintable line.1 (hcommands ▸ List.mem_map_of_mem hline)
  refine ⟨?_, hlaid⟩
  exact hlaid _ _ (by simp) (Source.laysOut_map_text commands 1)

/-- A label with blanks in its name, and a loop that waits there. -/
def waitCommands : List Command :=
  [.label " wait here ", .addressLoad "KBD", .compute ⟨some "D", "M", some "JEQ", 1, 0⟩]

def waitNumbered : List (Command × Nat) :=
  waitCommands.zip [2, 4, 5]

def waitLines : List String :=
  ["// wait for a key", "( wait here )\t", "\u001f", "  @KBD", "\t D=M;JEQ\u00a0", " / over"]

theorem ofText_printed_wait :
    (∀ c ∈ waitCommands, c.IsPrintable) ∧
    ofText "a.asm" (joinLines (waitCommands.map (·.text))) =
      .ok (printed "a.asm" (waitCommands.zipIdx 1)) ∧
    Source.LaysOut 1 waitNumbered waitLines ∧
    ofText "a.asm" (joinLines waitLines) = .ok (printed "a.asm" waitNumbered) := by
  have hprintable : ∀ c ∈ waitCommands, c.IsPrintable := by
    intro c hc
    simp only [waitCommands, List.mem_cons, List.not_mem_nil, or_false] at hc
    rcases hc with rfl | rfl | rfl
    · have hbreaks : (" wait here ".toList.all fun x => !isLineBreak x) = true := by decide +kernel
      apply Command.IsPrintable.label _ (by decide +kernel) (by decide +kernel)
      simpa using hbreaks
    · exact .addressLoad _ (by decide +kernel) (by decide +kernel)
    · have hhead : (Fields.text ⟨some "D", "M", some "JEQ", 1, 0⟩).toList.head? = some 'D' := by
        decide +kernel
      apply Command.IsPrintable.compute _ (by decide +kernel) (by decide +kernel)
      rw [hhead]
      rintro x ⟨⟩
      decide
  have hlaid : Source.LaysOut 1 waitNumbered waitLines := by
    apply Source.LaysOut.skipped _ (by decide +kernel)
    apply Source.LaysOut.command _ "" "\t" (by decide +kernel) (by decide) (by decide)
    apply Source.LaysOut.skipped _ (by decide +kernel)
    apply Source.LaysOut.command _ "  " "" (by decide +kernel) (by decide) (by decide)
    apply Source.LaysOut.command _ "\t " "\u00a0" (by decide +kernel) (by decide) (by decide)
    apply Source.LaysOut.skipped _ (by decide +kernel)
    exact .nil 7
  obtain ⟨hbelow, hlayout⟩ := ofText_printed hprintable "a.asm"
  exact ⟨hprintable, hbelow, hlaid, hlayout waitNumbered waitLines rfl hlaid⟩

end Statement

end HackToolchain
