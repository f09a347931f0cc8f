import HackToolchain.Program.Generation
import HackToolchain.Proofs.Symbol.FreeAddresses

/-!
# The meaning of a program

What the symbols of a program stand for can be said without running the two passes. A literal is its
value and a predefined symbol has its fixed address. A label is the number of instructions before its
declaration, wherever that stands. Any other operand is a variable, and the variables take the free
addresses from the base upwards in the order of their first use.
-/

namespace HackToolchain

/-- The operand of an address load. -/
def Command.operand? : Command → Option String
  | addressLoad operand => some operand
  | _ => none

/-- The name of a label declaration. -/
def Command.labelName? : Command → Option String
  | label name => some name
  | _ => none

theorem Command.labelName?_eq_some_iff {c : Command} {name : String} :
    c.labelName? = some name ↔ c = label name := by
  cases c <;> simp [labelName?]

theorem Command.operand?_eq_some_iff {c : Command} {operand : String} :
    c.operand? = some operand ↔ c = addressLoad operand := by
  cases c <;> simp [operand?]

namespace Denotation

variable {settings : Settings} {program done rest statements : List Statement} {s : Statement}
variable {name : String} {symbol : Symbol}

/-- The number of instructions among some statements. -/
def instructionCount (statements : List Statement) : Nat :=
  statements.countP fun s => s.command.isInstruction

/-- The operands of the address loads, in source order. -/
def operands (statements : List Statement) : List String :=
  statements.filterMap fun s => s.command.operand?

/-- The names of the label declarations, in source order. -/
def labelNames (statements : List Statement) : List String :=
  statements.filterMap fun s => s.command.labelName?

/-- Whether every program may use a name. -/
def isPredefined (name : String) : Bool :=
  (Machine.predefined.lookup name).isSome

/-- The number of instructions before the first declaration of a label. -/
def labelAddress (program : List Statement) (name : String) : Nat :=
  instructionCount (program.takeWhile fun s => s.command ≠ .label name)

/-- The labels that a program adds to the predefined symbols, in the order of their first
declaration. -/
def newLabels (program : List Statement) : List String :=
  ((labelNames program).filter fun name => !isPredefined name).eraseDups

/-- Whether a name stands for a variable of a program: it is no literal, it is not predefined, and
no label of the program has it. -/
def isVariable (program : List Statement) (name : String) : Bool :=
  !Text.Numeral.isLiteral name && !isPredefined name && !(labelNames program).contains name

/-- The variables of a program that some of its statements use, in the order of their first use. -/
def usedVariables (program statements : List Statement) : List String :=
  ((operands statements).filter (isVariable program)).eraseDups

/-- The variables of a program, in the order of their first use. -/
def variableNames (program : List Statement) : List String :=
  usedVariables program program

/-- The address of a variable: the free addresses go to the variables in order. -/
def variableAddress (settings : Settings) (program : List Statement) (name : String) : Int :=
  nthFree Machine.reserved settings.variableBase ((variableNames program).idxOf name)

/-- The address of an operand. -/
def addressOf (settings : Settings) (program : List Statement) (operand : String) : Int :=
  if Text.Numeral.isLiteral operand then (Nat.ofDigitChars 10 operand.toList 0 : Nat)
  else match Machine.predefined.lookup operand with
    | some address => address
    | none =>
      if (labelNames program).contains operand then labelAddress program operand
      else variableAddress settings program operand

/-- The symbol of a label, placed where the label is first declared. -/
def labelSymbol (program : List Statement) (name : String) : Symbol where
  name := name
  address := labelAddress program name
  kind := .label
  location := (program.find? fun s => s.command = .label name).map (·.location)

/-- The symbol of a variable, placed where the variable is first used. -/
def variableSymbol (settings : Settings) (program : List Statement) (name : String) : Symbol where
  name := name
  address := variableAddress settings program name
  kind := .var
  location := (program.find? fun s => s.command = .addressLoad name).map (·.location)

/-- The predefined symbols and the labels of a program. -/
def labelTable (program : List Statement) : SymbolTable :=
  ⟨SymbolTable.initial.entries ++ (newLabels program).map (labelSymbol program)⟩

/-- The predefined symbols, the labels of a program, and the variables that some of its statements
use. -/
def usedTable (settings : Settings) (program statements : List Statement) : SymbolTable :=
  ⟨(labelTable program).entries ++
    (usedVariables program statements).map (variableSymbol settings program)⟩

/-- The symbols of a program: the predefined ones, its labels in the order of their first
declaration, and its variables in the order of their first use. -/
def symbolTable (settings : Settings) (program : List Statement) : SymbolTable :=
  ⟨SymbolTable.initial.entries ++ (newLabels program).map (labelSymbol program) ++
    (variableNames program).map (variableSymbol settings program)⟩

/-- The word of a statement of a program, or why there is none; nothing for a statement that is no
instruction. -/
def word? (settings : Settings) (program : List Statement) (s : Statement) :
    Option (Except Cause Word) :=
  match s.command with
  | .addressLoad operand =>
    some (Word.ofAddress (addressOf settings program operand) settings.limit)
  | .compute fields => some fields.encode
  | .label _ | .remark => none

/-- Only address loads and compute instructions have words. -/
theorem word?_eq_some_iff {result : Except Cause Word} : word? settings program s = some result ↔
    (∃ operand, s.command = .addressLoad operand ∧
      Word.ofAddress (addressOf settings program operand) settings.limit = result) ∨
    ∃ fields, s.command = .compute fields ∧ fields.encode = result := by
  rw [word?]
  cases s.command <;> simp

/-! ### Looking up symbols -/

theorem find?_append (entries more : List Symbol) :
    SymbolTable.find? ⟨entries ++ more⟩ name =
      (SymbolTable.find? ⟨entries⟩ name).or (SymbolTable.find? ⟨more⟩ name) := by
  simp [SymbolTable.find?, List.find?_append]

theorem find?_ofSeed (seed : List (String × Int)) : (SymbolTable.ofSeed seed).find? name =
    (seed.lookup name).map fun address => ⟨name, address, .predefined, none⟩ := by
  induction seed with
  | nil => rfl
  | cons entry seed ih =>
    obtain ⟨key, address⟩ := entry
    simp only [SymbolTable.ofSeed, SymbolTable.find?, List.map_cons, List.find?_cons,
      List.lookup_cons] at ih ⊢
    by_cases h : key = name
    · subst h
      simp
    · have hname : (name == key) = false := by simpa using Ne.symm h
      simp only [beq_eq_false_iff_ne.2 h, hname]
      exact ih

theorem find?_initial : SymbolTable.initial.find? name =
    (Machine.predefined.lookup name).map fun address => ⟨name, address, .predefined, none⟩ :=
  find?_ofSeed _

theorem find?_initial_eq_none_iff :
    SymbolTable.initial.find? name = none ↔ isPredefined name = false := by
  rw [find?_initial, Option.map_eq_none_iff, isPredefined, Option.isSome_eq_false_iff,
    Option.isNone_iff_eq_none]

/-- Symbols that are made from distinct names are found by their names. -/
theorem find?_map {make : String → Symbol} (hmake : ∀ n, (make n).name = n) (names : List String) :
    SymbolTable.find? ⟨names.map make⟩ name = if name ∈ names then some (make name) else none := by
  induction names with
  | nil => rfl
  | cons n names ih =>
    simp only [SymbolTable.find?, List.map_cons, List.find?_cons, hmake] at ih ⊢
    by_cases h : n = name
    · simp [h]
    · simp only [beq_eq_false_iff_ne.2 h, ih, List.mem_cons, Ne.symm h, false_or]

/-! ### Labels -/

theorem mem_labelNames_iff : name ∈ labelNames statements ↔
    ∃ s ∈ statements, s.command = .label name := by
  simp [labelNames, Command.labelName?_eq_some_iff]

theorem mem_newLabels_iff :
    name ∈ newLabels program ↔ name ∈ labelNames program ∧ isPredefined name = false := by
  simp [newLabels, List.mem_eraseDups]

theorem labelNames_append :
    labelNames (done ++ rest) = labelNames done ++ labelNames rest := by
  simp [labelNames]

/-- Statements behind the declaration of a label do not move the label. -/
theorem labelAddress_append_of_mem (h : name ∈ labelNames done) :
    labelAddress (done ++ rest) name = labelAddress done name := by
  obtain ⟨s, hs, hlabel⟩ := mem_labelNames_iff.1 h
  rw [labelAddress, List.takeWhile_append]
  split
  · next hall =>
    -- Not all statements come before the declaration, since it is one of them.
    have hs' := (List.takeWhile_prefix _).eq_of_length hall ▸ hs
    have hne := List.all_eq_true.1 (List.all_takeWhile
      (p := fun s : Statement => decide (s.command ≠ .label name)) (l := done)) s hs'
    simp [hlabel] at hne
  · rfl

/-- A label that is declared behind some statements that do not declare it. -/
theorem labelAddress_append_of_notMem (h : name ∉ labelNames done) (hs : s.command = .label name) :
    labelAddress (done ++ s :: rest) name = instructionCount done := by
  have hne : ∀ t ∈ done, decide (t.command ≠ .label name) = true := fun t ht => by
    simpa using fun hlabel => h (mem_labelNames_iff.2 ⟨t, ht, hlabel⟩)
  rw [labelAddress, List.takeWhile_append_of_pos hne]
  simp [hs]

theorem labelSymbol_append_of_mem (h : name ∈ labelNames done) :
    labelSymbol (done ++ rest) name = labelSymbol done name := by
  obtain ⟨s, hs, hlabel⟩ := mem_labelNames_iff.1 h
  have hsome : (done.find? fun s => s.command = .label name).isSome :=
    List.find?_isSome.2 ⟨s, hs, by simpa using hlabel⟩
  simp only [labelSymbol, labelAddress_append_of_mem h, List.find?_append]
  rw [Option.or_of_isSome hsome]

theorem labelSymbol_append_of_notMem (h : name ∉ labelNames done) (hs : s.command = .label name) :
    labelSymbol (done ++ s :: rest) name =
      ⟨name, instructionCount done, .label, some s.location⟩ := by
  have hnone : (done.find? fun s => s.command = .label name) = none := by
    refine List.find?_eq_none.2 fun t ht hlabel => h (mem_labelNames_iff.2 ⟨t, ht, ?_⟩)
    simpa using hlabel
  simp [labelSymbol, labelAddress_append_of_notMem h hs, List.find?_append, hnone, hs]

/-- Further statements add labels to the table and change none. -/
theorem labelTable_append (done rest : List Statement) : ∃ more : List String,
    newLabels (done ++ rest) = newLabels done ++ more ∧
      labelTable (done ++ rest) =
        ⟨(labelTable done).entries ++ more.map (labelSymbol (done ++ rest))⟩ := by
  refine ⟨(((labelNames rest).filter fun name => !isPredefined name).removeAll
    ((labelNames done).filter fun name => !isPredefined name)).eraseDups, ?_, ?_⟩
  · simp only [newLabels, labelNames_append, List.filter_append, List.eraseDups_append]
  · simp only [labelTable, newLabels, labelNames_append, List.filter_append, List.eraseDups_append,
      List.map_append, List.append_assoc]
    congr 2
    refine congrArg (· ++ _) (List.map_congr_left fun n hn => ?_)
    exact labelSymbol_append_of_mem (mem_newLabels_iff.1 hn).1

theorem find?_labelTable_append (rest : List Statement)
    (h : (labelTable done).find? name = some symbol) :
    (labelTable (done ++ rest)).find? name = some symbol := by
  obtain ⟨more, -, htable⟩ := labelTable_append done rest
  rw [htable, find?_append]
  change ((labelTable done).find? name).or _ = _
  rw [h, Option.some_or]

theorem find?_labelTable : (labelTable program).find? name =
    (SymbolTable.initial.find? name).or
      (if name ∈ newLabels program then some (labelSymbol program name) else none) := by
  rw [labelTable, find?_append, find?_map fun n => rfl]

/-- A statement that declares no label leaves the labels as they are. -/
theorem labelTable_append_of_labelName? (h : s.command.labelName? = none) :
    labelTable (done ++ [s]) = labelTable done := by
  have hnames : labelNames (done ++ [s]) = labelNames done := by
    simp [labelNames, h]
  simp only [labelTable, newLabels, hnames]
  refine congrArg (fun l => (⟨_ ++ l⟩ : SymbolTable)) (List.map_congr_left fun n hn => ?_)
  exact labelSymbol_append_of_mem (mem_newLabels_iff.1 hn).1

/-- A declaration that the table accepts binds the label as the closed form has it. -/
theorem define_labelTable {bound : SymbolTable} (hs : s.command = .label name)
    (h : (labelTable done).define ⟨name, instructionCount done, .label, some s.location⟩ =
      .ok bound) : bound = labelTable (done ++ [s]) := by
  have hnames : labelNames (done ++ [s]) = labelNames done ++ [name] := by
    simp [labelNames, hs, Command.labelName?]
  obtain ⟨more, hnew, htable⟩ := labelTable_append done [s]
  have hmore : newLabels (done ++ [s]) = newLabels done ++
      (([name].filter fun n => !isPredefined n).removeAll
        ((labelNames done).filter fun n => !isPredefined n)).eraseDups := by
    simp only [newLabels, hnames, List.filter_append, List.eraseDups_append]
  rw [hmore] at hnew
  rw [htable, ← List.append_cancel_left hnew]
  rcases SymbolTable.define_eq_ok_iff.1 h with ⟨e, he, -, rfl⟩ | ⟨hnone, -, rfl⟩
  · -- The name is predefined or declared before, so nothing is added.
    have hold : isPredefined name = true ∨ name ∈ labelNames done := by
      rw [find?_labelTable] at he
      by_cases hp : isPredefined name = true
      · exact .inl hp
      · by_cases hm : name ∈ newLabels done
        · exact .inr (mem_newLabels_iff.1 hm).1
        · have hinitial := find?_initial_eq_none_iff.2 (Bool.not_eq_true _ ▸ hp)
          simp [hinitial, hm] at he
    rcases hold with hp | hm
    · simp [hp, List.removeAll]
    · by_cases hp : isPredefined name = true
      · simp [hp, List.removeAll]
      · simp [hp, hm, List.removeAll]
  · -- The name is new, and its label is the last one of the closed form.
    rw [find?_labelTable, Option.or_eq_none_iff] at hnone
    have hp := find?_initial_eq_none_iff.1 hnone.1
    have hm : name ∉ labelNames done := fun hm => by
      simp [mem_newLabels_iff, hm, hp] at hnone
    simp [hp, hm, List.removeAll, labelSymbol_append_of_notMem hm hs, List.eraseDups_cons]

/-! ### Variables -/

theorem operands_append : operands (done ++ rest) = operands done ++ operands rest := by
  simp [operands]

theorem mem_operands_iff : name ∈ operands statements ↔
    ∃ s ∈ statements, s.command = .addressLoad name := by
  simp [operands, Command.operand?_eq_some_iff]

theorem mem_usedVariables_iff : name ∈ usedVariables program statements ↔
    name ∈ operands statements ∧ isVariable program name = true := by
  simp [usedVariables, List.mem_eraseDups]

theorem isVariable_eq_true_iff : isVariable program name = true ↔
    Text.Numeral.isLiteral name = false ∧ isPredefined name = false ∧
      name ∉ labelNames program := by
  simp [isVariable, and_assoc]

theorem addressOf_of_isVariable (h : isVariable program name = true) :
    addressOf settings program name = variableAddress settings program name := by
  obtain ⟨hliteral, hpredefined, hlabel⟩ := isVariable_eq_true_iff.1 h
  rw [isPredefined, Option.isSome_eq_false_iff, Option.isNone_iff_eq_none] at hpredefined
  simp [addressOf, hliteral, hpredefined, hlabel]

/-- Later statements add variables behind those that are used already. -/
theorem usedVariables_append (program done rest : List Statement) : ∃ more,
    usedVariables program (done ++ rest) = usedVariables program done ++ more := by
  simp only [usedVariables, operands_append, List.filter_append, List.eraseDups_append]
  exact ⟨_, rfl⟩

/-- A statement that uses no new variable. -/
theorem usedVariables_append_of_forall
    (h : ∀ operand, s.command = .addressLoad operand → isVariable program operand = true →
      operand ∈ usedVariables program done) :
    usedVariables program (done ++ [s]) = usedVariables program done := by
  simp only [usedVariables, operands_append, List.filter_append, List.eraseDups_append]
  cases hs : s.command.operand? with
  | none => simp [operands, hs, List.removeAll]
  | some operand =>
    have hcommand := Command.operand?_eq_some_iff.1 hs
    have hlast : operands [s] = [operand] := by simp [operands, hs]
    -- An operand that is no variable is filtered out, and one that is was used before.
    by_cases hvar : isVariable program operand = true
    · have hmem := (mem_usedVariables_iff.1 (h operand hcommand hvar)).1
      simp [hlast, hvar, hmem, List.removeAll]
    · simp [hlast, hvar, List.removeAll]

/-- A statement that uses a new variable. -/
theorem usedVariables_append_of_notMem (hs : s.command = .addressLoad name)
    (hvar : isVariable program name = true) (hnew : name ∉ usedVariables program done) :
    usedVariables program (done ++ [s]) = usedVariables program done ++ [name] := by
  have hoperand : name ∉ operands done := fun h => hnew (mem_usedVariables_iff.2 ⟨h, hvar⟩)
  simp only [usedVariables, operands_append, List.filter_append, List.eraseDups_append]
  have hlast : operands [s] = [name] := by simp [operands, hs, Command.operand?]
  simp [hlast, hvar, hoperand, List.removeAll, List.eraseDups_cons]

/-- The symbol of a variable at the statement that uses it first. -/
theorem variableSymbol_of_notMem (settings : Settings) (hprogram : program = done ++ s :: rest)
    (hs : s.command = .addressLoad name) (hvar : isVariable program name = true)
    (hnew : name ∉ usedVariables program done) :
    variableSymbol settings program name =
      ⟨name, nthFree Machine.reserved settings.variableBase (usedVariables program done).length,
        .var, some s.location⟩ := by
  have hindex : (variableNames program).idxOf name = (usedVariables program done).length := by
    obtain ⟨more, hmore⟩ := usedVariables_append program (done ++ [s]) rest
    have hnames : variableNames program = usedVariables program done ++ name :: more := by
      rw [variableNames, show usedVariables program program = usedVariables program
        (done ++ [s] ++ rest) by rw [List.append_assoc, List.singleton_append, ← hprogram], hmore,
        usedVariables_append_of_notMem hs hvar hnew, List.append_assoc, List.singleton_append]
    rw [hnames, List.idxOf_append, if_neg hnew, List.idxOf_cons_self, Nat.zero_add]
  -- The statement is the first one that loads the name.
  have hnone : (done.find? fun s => s.command = .addressLoad name) = none := by
    refine List.find?_eq_none.2 fun t ht hload => hnew (mem_usedVariables_iff.2 ⟨?_, hvar⟩)
    exact mem_operands_iff.2 ⟨t, ht, by simpa using hload⟩
  have hplace : (program.find? fun s => s.command = .addressLoad name) = some s := by
    rw [hprogram, List.find?_append, hnone]
    simp [hs]
  rw [variableSymbol, variableAddress, hindex, hplace]
  rfl

theorem find?_usedTable : (usedTable settings program statements).find? name =
    ((labelTable program).find? name).or
      (if name ∈ usedVariables program statements then some (variableSymbol settings program name)
        else none) := by
  rw [usedTable, find?_append, find?_map fun n => rfl]

/-- A name is bound if it is predefined, a label, or a variable in use. -/
theorem contains_usedTable : (usedTable settings program statements).contains name = true ↔
    isPredefined name = true ∨ name ∈ labelNames program ∨
      name ∈ usedVariables program statements := by
  have hinitial : (SymbolTable.initial.find? name).isSome = isPredefined name := by
    simp [find?_initial, isPredefined]
  simp only [SymbolTable.contains, find?_usedTable, find?_labelTable, Option.isSome_or, hinitial,
    Bool.or_eq_true, mem_newLabels_iff]
  by_cases hp : isPredefined name = true <;> simp [hp]

/-- Every bound name that is no literal has the address of the closed form. -/
theorem lookup_usedTable (hliteral : Text.Numeral.isLiteral name = false)
    (hbound : (usedTable settings program statements).contains name = true) :
    (usedTable settings program statements).lookup name = .ok (addressOf settings program name) := by
  rw [SymbolTable.lookup, find?_usedTable, find?_labelTable, find?_initial]
  cases hp : Machine.predefined.lookup name with
  | some address => simp [addressOf, hliteral, hp]
  | none =>
    have hnew : name ∈ newLabels program ↔ name ∈ labelNames program := by
      simp only [mem_newLabels_iff, isPredefined, hp, Option.isSome_none, and_true]
    by_cases hlabel : name ∈ labelNames program
    · simp [addressOf, hliteral, hp, hnew, hlabel, labelSymbol]
    · have hused : name ∈ usedVariables program statements := by
        rcases contains_usedTable.1 hbound with h | h | h
        · simp [isPredefined, hp] at h
        · exact absurd h hlabel
        · exact h
      simp [addressOf, hliteral, hp, hnew, hlabel, hused, variableSymbol]

end Denotation

end HackToolchain
