import HackToolchain.Proofs.Disassembly.SymbolicText
import HackToolchain.Proofs.Program.Invariant
import HackToolchain.Proofs.Program.Variables
import HackToolchain.Proofs.Session.Calls

/-!
# Disassembly with the variables of a run

The variables of a run give names to the addresses in its words, those of literals and labels
included. The symbolic text with these names is assembled to the same words exactly if the names
appear in it in the order in which the variables were served. A literal or a label can break this
order, if it has the address of a variable that comes later.
-/

namespace HackToolchain

open Text Denotation

variable {m : SymbolMap} {names : List String} {name file source : String} {w : Word}
variable {words : List Word} {settings : Settings} {program statements : List Statement}
variable {s : Statement}

/-- The names of the variables of a program, by their addresses. -/
def Program.variableMap (p : Program) : SymbolMap :=
  (p.symbols.ofKind (some .var)).map fun v => (v.address, v.name)

/-! ### The variables of a run -/

/-- Values that are listed with different keys are found by their keys. -/
theorem lookup_map_eq_some_iff {f : String → Int} {a : Int}
    (hf : ∀ x ∈ names, ∀ y, f x = f y → x = y) :
    (names.map fun x => (f x, x)).lookup a = some name ↔ name ∈ names ∧ f name = a := by
  induction names with
  | nil => simp
  | cons x names ih =>
    obtain ⟨hx, hnames⟩ := List.forall_mem_cons.1 hf
    rw [List.map_cons, List.lookup_cons, List.mem_cons]
    by_cases ha : a = f x
    · -- The key is that of the first value, so no other value has it.
      subst ha
      simp only [BEq.rfl, Option.some.injEq]
      constructor
      · rintro rfl
        exact ⟨.inl rfl, rfl⟩
      · rintro ⟨-, hname⟩
        exact hx name hname.symm
    · simp only [beq_eq_false_iff_ne.2 ha, ih hnames]
      constructor
      · rintro ⟨hname, haddress⟩
        exact ⟨.inr hname, haddress⟩
      · rintro ⟨rfl | hname, haddress⟩
        · exact absurd haddress.symm ha
        · exact ⟨hname, haddress⟩

namespace Denotation

/-- The variables that a run has bound are those of the closed form. -/
theorem ofKind_var_of_result (h : (generate settings program).result = .ok words) :
    (generate settings program).program.symbols.ofKind (some .var) =
      (variableNames program).map (variableSymbol settings program) := by
  have hentries : (symbolTable settings program).entries = SymbolTable.initial.entries ++
      ((newLabels program).map (labelSymbol program) ++
        (variableNames program).map (variableSymbol settings program)) :=
    List.append_assoc _ _ _
  have hlabels : ∀ s ∈ (newLabels program).map (labelSymbol program), s.kind = .label :=
    List.forall_mem_map.2 fun _ _ => rfl
  have hvars : ∀ s ∈ (variableNames program).map (variableSymbol settings program), s.kind = .var :=
    List.forall_mem_map.2 fun _ _ => rfl
  rw [(generate_of_result h).1]
  exact (SymbolTable.ofKind_of_entries hentries hlabels hvars).2

theorem variableMap_of_result (h : (generate settings program).result = .ok words) :
    (generate settings program).program.variableMap =
      (variableNames program).map fun name => (variableAddress settings program name, name) := by
  rw [Program.variableMap, ofKind_var_of_result h, List.map_map]
  rfl

/-- The variables of a run are found by their addresses, as no two of them have the same one. -/
theorem lookup_variableMap_iff {a : Int} (h : (generate settings program).result = .ok words) :
    (generate settings program).program.variableMap.lookup a = some name ↔
      name ∈ variableNames program ∧ variableAddress settings program name = a := by
  rw [variableMap_of_result h]
  exact lookup_map_eq_some_iff fun x hx y => eq_of_variableAddress_eq hx

/-- Every variable of a run is loaded by one of its words, the number of which can be written: it is
not larger than that of the line in which the variable was announced. -/
theorem exists_word_of_mem_variableNames {lines : List String}
    (hstatements : Statement.ofLines file lines = .ok program)
    (h : (generate settings program).result = .ok words) (hname : name ∈ variableNames program) :
    ∃ front w back, words = front ++ w :: back ∧
      Numeral.isWritable (front.length + 1 : Nat) = true ∧
      Word.ofAddress (variableAddress settings program name) settings.limit = .ok w := by
  obtain ⟨hoperand, hvariable⟩ := mem_usedVariables_iff.1 hname
  obtain ⟨before, s, after, hsplit, hload, hfirst⟩ := exists_isFirstUse hvariable hoperand
  have hfaultless := (generate_fault_eq_none_iff.1 (Run.result_eq_ok_iff.1 h).1).2
  have hplace : s.location.IsWritable := by
    cases hobstacle : Bindings.allocationObstacle? (addressOf settings program name) s.location with
    | none => exact (Bindings.allocationObstacle?_eq_none_iff.1 hobstacle).2
    | some obstacle =>
      exact absurd (hload ▸ .unannouncedVariable hfirst hobstacle) (hfaultless before s after hsplit)
  -- The statement that uses the variable first has the word.
  have hword : word? settings program s =
      some (Word.ofAddress (variableAddress settings program name) settings.limit) := by
    rw [word?, hload, ← addressOf_of_isVariable hvariable]
  have hwords : words.map Except.ok = before.filterMap (word? settings program) ++
      Word.ofAddress (variableAddress settings program name) settings.limit ::
        after.filterMap (word? settings program) := by
    rw [← (generate_of_result h).2, ← List.filterMap_cons_some hword, ← List.filterMap_append,
      ← hsplit]
  obtain ⟨front, rest, rfl, hfront, hrest⟩ := List.map_eq_append_iff.1 hwords
  obtain ⟨w, back, rfl, hw, -⟩ := List.map_eq_cons_iff.1 hrest
  refine ⟨front, w, back, rfl, ?_, hw.symm⟩
  have hlength : front.length ≤ before.length := by
    rw [← List.length_map (f := Except.ok), hfront]
    exact List.length_filterMap_le _ _
  obtain ⟨n, hline, hlocation⟩ := Statement.le_line_of_ofLinesFrom (hsplit ▸ hstatements)
  rw [hlocation] at hplace
  exact Numeral.isWritable_of_le (by omega) hplace.1

end Denotation

namespace Disassembly

/-- The variables of a run name the addresses at which they are served. -/
theorem names_variableMap {lines : List String}
    (hstatements : Statement.ofLines file lines = .ok program)
    (hresult : (generate .default program).result = .ok words) :
    Names (generate .default program).program.variableMap (variableNames program) where
  nodup := nodup_eraseDups _
  lookup_iff _ _ := lookup_variableMap_iff hresult
  solid name hname := isSolid_of_mem_variableNames hstatements hname
  free name hname := by
    obtain ⟨hliteral, hpredefined, -⟩ :=
      isVariable_eq_true_iff.1 (mem_usedVariables_iff.1 hname).2
    exact ⟨hliteral, hpredefined⟩
  small i hi := by
    -- The variable with this number has a word, so its address fits in one.
    obtain ⟨front, w, back, -, -, hw⟩ :=
      exists_word_of_mem_variableNames hstatements hresult (List.getElem_mem hi)
    have hindex : (variableNames program).idxOf (variableNames program)[i] = i :=
      (nodup_eraseDups _).idxOf_getElem i hi
    have hbound := (Word.ofAddress_eq_ok_iff.1 hw).1.2
    rwa [variableAddress, hindex] at hbound

/-- Every variable of a run is the name that one of its words loads. -/
theorem exists_loadedName?_of_result {lines : List String}
    (hstatements : Statement.ofLines file lines = .ok program)
    (hm : Names m (variableNames program)) (hresult : (generate .default program).result = .ok words)
    (hname : name ∈ variableNames program) :
    ∃ front w back, words = front ++ w :: back ∧ loadedName? m w = some name ∧
      Numeral.isWritable (front.length + 1 : Nat) = true := by
  obtain ⟨front, w, back, hwords, hnumber, haddress⟩ :=
    exists_word_of_mem_variableNames hstatements hresult hname
  obtain ⟨⟨hlow, hhigh⟩, rfl⟩ := Word.ofAddress_eq_ok_iff.1 haddress
  refine ⟨front, _, back, hwords, ?_, hnumber⟩
  have hsmall : variableAddress .default program name ≤ 32767 := hhigh
  rw [loadedName?_ofNat (by omega), Int.toNat_of_nonneg hlow]
  exact (hm.lookup_iff _ _).2 ⟨hname, rfl⟩

/-- The words of a run have a symbolic text. It is assembled to these words with the variables served
in the order in which they are loaded. -/
theorem exists_symbolicText {lines : List String}
    (hstatements : Statement.ofLines file lines = .ok program)
    (hresult : (generate .default program).result = .ok words) :
    let named := (generate .default program).program.variableMap
    ∃ text, sourceText named words = .ok text ∧ ∀ file',
      assemble file' text = .ok (words.map (reallocated named words)) ∧
      (assemble file' text = .ok words ↔ loadedNames named words = variableNames program) := by
  intro named
  have hm : Names named (variableNames program) := names_variableMap hstatements hresult
  have hcanonical := forall₂_canonical_normalText? (generate_of_result hresult).2
  obtain ⟨commands, hsymbolic⟩ := exists_forall₂_symbolic hcanonical named
  have hloaded (name : String) (hname : name ∈ variableNames program) :=
    exists_loadedName?_of_result hstatements hm hresult hname
  refine ⟨_, sourceText_of_symbolic hsymbolic, fun file' => ?_⟩
  have hassembled := assemble_of_symbolic hm hsymbolic (fun name hname => by
    obtain ⟨w, -, hw⟩ := mem_loadedNames_iff.1 hname
    exact hloaded name (hm.mem (loadedName?_eq_some_iff.1 hw).2)) file'
  refine ⟨hassembled, ?_⟩
  rw [hassembled, Except.ok.injEq]
  apply map_reallocated_eq_iff hm (forall_isWord_of_symbolic hsymbolic)
  intro name hname
  obtain ⟨front, w, back, rfl, hw, -⟩ := hloaded name hname
  exact ⟨w, by simp, hw⟩

/-- The session behind an assembled text holds the program of its run. -/
theorem program_assembleText (hprogram : Statement.ofText file source = .ok program)
    (h : assemble file source = .ok words) : (generate .default program).result = .ok words ∧
      ((Assembler.start .default).assembleText file source).1.program =
        (generate .default program).program := by
  obtain ⟨other, ⟨hother, -⟩, hresult, hsame⟩ :=
    Assembler.yields_record (a := .start .default) (r := ⟨.default, file, ⟨lines source, none⟩⟩) h
  obtain rfl : program = other := Except.ok.inj (hprogram.symm.trans hother)
  exact ⟨hresult, hsame.symm⟩

/-- The words of an assembled text have a symbolic text, with the variables of the run as names. It is
assembled to these words with the names served in the order in which they are loaded, so to the same
words exactly if this is the order in which the variables were served. -/
theorem assemble_symbolicText (h : assemble file source = .ok words) :
    let named := ((Assembler.start .default).assembleText file source).1.program.variableMap
    ∃ text, sourceText named words = .ok text ∧ ∀ file',
      assemble file' text = .ok (words.map (reallocated named words)) ∧
      (assemble file' text = .ok words ↔ loadedNames named words = named.map Prod.snd) := by
  intro named
  obtain ⟨program, hprogram, -⟩ := assemble_eq_ok_iff.1 h
  obtain ⟨hresult, hsame⟩ := program_assembleText hprogram h
  have hnamed : named = (generate .default program).program.variableMap :=
    congrArg Program.variableMap hsame
  have hnames : named.map Prod.snd = variableNames program := by
    rw [hnamed, variableMap_of_result hresult, List.map_map]
    exact List.map_id' _
  rw [hnames, hnamed]
  exact exists_symbolicText hprogram hresult

/-- A literal behind the variable whose address it is, and a label. -/
def aliasedSource : String := "@x\n@16\n@y\n(END)\n@END\n0;JMP\n"

def aliasedWords : List Word :=
  ["0000000000010000", "0000000000010000", "0000000000010001", "0000000000000011",
   "1110101010000111"]

theorem assemble_symbolicText_aliased :
    let named := ((Assembler.start .default).assembleText "a.asm" aliasedSource).1.program.variableMap
    assemble "a.asm" aliasedSource = .ok aliasedWords ∧
      sourceText named aliasedWords = .ok "@x\n@x\n@y\n@3\n0;JMP\n" ∧
      ∀ file', assemble file' "@x\n@x\n@y\n@3\n0;JMP\n" = .ok aliasedWords := by
  intro named
  have h : assemble "a.asm" aliasedSource = .ok aliasedWords := by decide +kernel
  have htext : sourceText named aliasedWords = .ok "@x\n@x\n@y\n@3\n0;JMP\n" := by decide +kernel
  have hnames : loadedNames named aliasedWords = named.map Prod.snd := by decide +kernel
  obtain ⟨text, hsource, hassembled⟩ := assemble_symbolicText h
  obtain rfl := Except.ok.inj (htext.symm.trans hsource)
  exact ⟨h, htext, fun file' => (hassembled file').2.2 hnames⟩

/-- A literal before the variable whose address it is. -/
def shadowedSource : String := "@17\n@x\n@y"

def shadowedWords : List Word :=
  ["0000000000010001", "0000000000010000", "0000000000010001"]

/-- The literal is printed as the second variable, which is then the first one to be served. -/
theorem assemble_symbolicText_shadowed :
    let named := ((Assembler.start .default).assembleText "a.asm" shadowedSource).1.program.variableMap
    assemble "a.asm" shadowedSource = .ok shadowedWords ∧
      named = [(16, "x"), (17, "y")] ∧
      sourceText named shadowedWords = .ok "@y\n@x\n@y\n" ∧
      assemble "a.asm" "@y\n@x\n@y\n" =
        .ok ["0000000000010000", "0000000000010001", "0000000000010000"] ∧
      assemble "a.asm" "@y\n@x\n@y\n" ≠ .ok shadowedWords := by
  intro named
  decide +kernel

/-! ### Addresses that are kept apart -/

/-- No literal, no predefined symbol and no label that a program loads has the address of a
variable. -/
def KeepsApart (program : List Statement) : Prop :=
  ∀ operand ∈ operands program, isVariable program operand = false →
    ∀ name ∈ variableNames program,
      addressOf .default program operand ≠ variableAddress .default program name

/-- Then a word loads a name if it was the operand, as a variable. -/
theorem KeepsApart.loadedName?_eq (hapart : KeepsApart program) (hm : Names m (variableNames program))
    (hs : s ∈ program) (hword : word? .default program s = some (.ok w)) :
    loadedName? m w = s.command.operand?.filter (isVariable program) := by
  rcases word?_eq_some_iff.1 hword with ⟨operand, hload, haddress⟩ | ⟨fields, hcompute, hencode⟩
  · obtain ⟨⟨hlow, hhigh⟩, rfl⟩ := Word.ofAddress_eq_ok_iff.1 haddress
    have hsmall : addressOf .default program operand ≤ 32767 := hhigh
    have hoperand : operand ∈ operands program := mem_operands_iff.2 ⟨s, hs, hload⟩
    rw [loadedName?_ofNat (by omega), Int.toNat_of_nonneg hlow, hload, Command.operand?]
    by_cases hvariable : isVariable program operand = true
    · rw [Option.filter_some, if_pos hvariable, addressOf_of_isVariable hvariable]
      exact (hm.lookup_iff _ _).2 ⟨mem_usedVariables_iff.2 ⟨hoperand, hvariable⟩, rfl⟩
    · -- No other operand has the address of a variable, so its address is not named.
      rw [Option.filter_some, if_neg hvariable]
      apply Option.eq_none_iff_forall_ne_some.2
      intro name hname
      obtain ⟨hmem, haddress⟩ := (hm.lookup_iff _ _).1 hname
      exact hapart operand hoperand (Bool.eq_false_iff.2 hvariable) name hmem haddress.symm
  · rw [hcompute]
    exact loadedName?_of_encode hencode

theorem KeepsApart.filterMap_eq (hapart : KeepsApart program)
    (hm : Names m (variableNames program)) (hsubset : ∀ s ∈ statements, s ∈ program)
    (hwords : statements.filterMap (word? .default program) = words.map Except.ok) :
    words.filterMap (loadedName? m) = (operands statements).filter (isVariable program) := by
  induction statements generalizing words with
  | nil =>
    obtain rfl := List.map_eq_nil_iff.1 hwords.symm
    rfl
  | cons s statements ih =>
    obtain ⟨hs, hrest⟩ := List.forall_mem_cons.1 hsubset
    rw [operands, List.filter_filterMap] at ih ⊢
    rw [List.filterMap_cons] at hwords
    cases hword : word? .default program s with
    | none =>
      -- A statement without a word loads nothing.
      have hoperand : s.command.operand? = none := by
        rw [word?] at hword
        cases hcommand : s.command <;> simp_all [Command.operand?]
      rw [hword] at hwords
      rw [List.filterMap_cons, hoperand]
      exact ih hrest hwords
    | some result =>
      rw [hword] at hwords
      obtain ⟨w, words, rfl, rfl, hbehind⟩ := List.map_eq_cons_iff.1 hwords.symm
      rw [List.filterMap_cons, List.filterMap_cons, hapart.loadedName?_eq hm hs hword,
        ih hrest hbehind.symm]

/-- A text is assembled to the same words from its symbolic text if the addresses of its variables are
kept apart from those of its other operands. -/
theorem assemble_symbolicText_of_keepsApart (h : assemble file source = .ok words)
    (hprogram : Statement.ofText file source = .ok program) (hapart : KeepsApart program) :
    ∃ text, sourceText ((Assembler.start .default).assembleText file source).1.program.variableMap
      words = .ok text ∧ ∀ file', assemble file' text = .ok words := by
  obtain ⟨hresult, hsame⟩ := program_assembleText hprogram h
  have hm := names_variableMap hprogram hresult
  have hloaded : words.filterMap (loadedName? (generate .default program).program.variableMap) =
      (operands program).filter (isVariable program) :=
    hapart.filterMap_eq hm (fun _ hs => hs) (generate_of_result hresult).2
  obtain ⟨text, htext, hassembled⟩ := exists_symbolicText hprogram hresult
  refine ⟨text, hsame ▸ htext, fun file' => (hassembled file').2.2 ?_⟩
  exact congrArg List.eraseDups hloaded

end Disassembly

end HackToolchain
