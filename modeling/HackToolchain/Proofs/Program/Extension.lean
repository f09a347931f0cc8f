import HackToolchain.Proofs.Program.Faults

/-!
# Programs that are extended

Statements that are appended to a program leave its code as it is. They move no label of the program,
and their variables come behind those that the program uses; only a label among them could take a
name away from the variables, which is why no operand of the program may be such a label. Then every
operand of the program has the same address as before, and every instruction fails or succeeds as
before.
-/

namespace HackToolchain

namespace Denotation

variable {settings : Settings} {program more : List Statement} {s : Statement}
variable {name operand : String} {symbol : Symbol}

/-- No operand of a program is declared as a label by the statements behind it, unless the program
declares it too. -/
def KeepsOperands (program more : List Statement) : Prop :=
  ∀ operand ∈ operands program, operand ∈ labelNames more → operand ∈ labelNames program

instance : Decidable (KeepsOperands program more) :=
  inferInstanceAs (Decidable (∀ operand ∈ operands program, _ → _))

/-! ### Names -/

theorem KeepsOperands.mem_labelNames_append_iff (h : KeepsOperands program more)
    (hoperand : operand ∈ operands program) :
    operand ∈ labelNames (program ++ more) ↔ operand ∈ labelNames program := by
  rw [labelNames_append, List.mem_append]
  exact ⟨fun hmem => hmem.elim id (h operand hoperand), .inl⟩

/-- An operand of a program stays a variable, and no other operand becomes one. -/
theorem KeepsOperands.isVariable_append (h : KeepsOperands program more)
    (hoperand : operand ∈ operands program) :
    isVariable (program ++ more) operand = isVariable program operand := by
  refine Bool.eq_iff_iff.2 ?_
  rw [isVariable_eq_true_iff, isVariable_eq_true_iff, h.mem_labelNames_append_iff hoperand]

/-- The variables of an extended program begin with those of the program. -/
theorem KeepsOperands.exists_variableNames_append (h : KeepsOperands program more) :
    ∃ behind, variableNames (program ++ more) = variableNames program ++ behind := by
  obtain ⟨behind, hbehind⟩ := usedVariables_append (program ++ more) program more
  have hused : usedVariables (program ++ more) program = variableNames program := by
    simp only [variableNames, usedVariables]
    rw [List.filter_congr fun operand => h.isVariable_append]
  exact ⟨behind, by rw [variableNames, hbehind, hused]⟩

/-! ### Addresses -/

theorem KeepsOperands.variableAddress_append (h : KeepsOperands program more)
    (hname : name ∈ variableNames program) :
    variableAddress settings (program ++ more) name = variableAddress settings program name := by
  obtain ⟨behind, hbehind⟩ := h.exists_variableNames_append
  rw [variableAddress, hbehind, List.idxOf_append_of_mem hname, variableAddress]

/-- The operands of a program keep their addresses. -/
theorem KeepsOperands.addressOf_append (h : KeepsOperands program more)
    (hoperand : operand ∈ operands program) :
    addressOf settings (program ++ more) operand = addressOf settings program operand := by
  by_cases hvariable : isVariable program operand = true
  · have hname : operand ∈ variableNames program := mem_usedVariables_iff.2 ⟨hoperand, hvariable⟩
    rw [addressOf_of_isVariable hvariable,
      addressOf_of_isVariable (h.isVariable_append hoperand ▸ hvariable),
      h.variableAddress_append hname]
  · -- It is a literal, a predefined name, or a label, which does not move.
    rw [isVariable_eq_true_iff] at hvariable
    rw [addressOf, addressOf]
    cases hliteral : Text.Numeral.isLiteral operand with
    | true => rfl
    | false =>
      cases hpredefined : Machine.predefined.lookup operand with
      | some address => rfl
      | none =>
        have hlabel : operand ∈ labelNames program := by
          by_contra hlabel
          exact hvariable ⟨hliteral, by rw [isPredefined, hpredefined]; rfl, hlabel⟩
        have hlabel' := (h.mem_labelNames_append_iff hoperand).2 hlabel
        simp [hlabel, hlabel', labelAddress_append_of_mem hlabel]

/-! ### Instructions -/

/-- The instructions of a program keep their words. -/
theorem KeepsOperands.word?_append (h : KeepsOperands program more) (hs : s ∈ program) :
    word? settings (program ++ more) s = word? settings program s := by
  rw [word?, word?]
  cases hcommand : s.command with
  | addressLoad operand =>
    simp only [h.addressOf_append (mem_operands_iff.2 ⟨s, hs, hcommand⟩)]
  | compute fields => rfl
  | label name => rfl
  | remark => rfl

/-- The instructions of a program keep their faults. -/
theorem KeepsOperands.fault?_append {before after : List Statement}
    (h : KeepsOperands program more) (hsplit : program = before ++ s :: after) :
    fault? settings (program ++ more) before s = fault? settings program before s := by
  rw [fault?, fault?]
  cases hcommand : s.command with
  | addressLoad operand =>
    have hoperand : operand ∈ operands program :=
      mem_operands_iff.2 ⟨s, by rw [hsplit]; simp, hcommand⟩
    have hfirst : isFirstUse (program ++ more) before operand =
        isFirstUse program before operand := by
      rw [isFirstUse, isFirstUse, h.isVariable_append hoperand]
    simp only [hfirst, h.addressOf_append hoperand]
  | compute fields => rfl
  | label name => rfl
  | remark => rfl

theorem KeepsOperands.faultless_of_append (h : KeepsOperands program more)
    (hgood : Faultless settings (program ++ more) (program ++ more)) :
    Faultless settings program program := by
  intro before s after hsplit
  rw [← isSome_fault?_iff, ← h.fault?_append hsplit, isSome_fault?_iff]
  exact hgood before s (after ++ more) (by rw [hsplit, List.append_assoc, List.cons_append])

/-- The declarations of a program do not conflict if those of an extended program do not. -/
theorem Consistent.of_append (h : Consistent (program ++ more)) : Consistent program := by
  intro before s after name existing hsplit hs hfind
  have hsplit' : program ++ more = before ++ s :: (after ++ more) := by
    rw [hsplit, List.append_assoc, List.cons_append]
  exact h before s (after ++ more) name existing hsplit' hs hfind

theorem Announced.of_append (h : Announced (program ++ more)) : Announced program := by
  intro before s after name hsplit hs hfind
  have hsplit' : program ++ more = before ++ s :: (after ++ more) := by
    rw [hsplit, List.append_assoc, List.cons_append]
  exact h before s (after ++ more) name hsplit' hs hfind

/-! ### Symbols -/

theorem KeepsOperands.variableSymbol_append (h : KeepsOperands program more)
    (hname : name ∈ variableNames program) :
    variableSymbol settings (program ++ more) name = variableSymbol settings program name := by
  obtain ⟨s, hs, hload⟩ := mem_operands_iff.1 (mem_usedVariables_iff.1 hname).1
  have hfirst : (program.find? fun s => s.command = .addressLoad name).isSome :=
    List.find?_isSome.2 ⟨s, hs, by simpa using hload⟩
  rw [variableSymbol, h.variableAddress_append hname, List.find?_append,
    Option.or_of_isSome hfirst, variableSymbol]

/-- The symbols of a program are kept, with their addresses, kinds and places. -/
theorem KeepsOperands.find?_symbolTable_append (h : KeepsOperands program more)
    (hfind : (symbolTable settings program).find? name = some symbol) :
    (symbolTable settings (program ++ more)).find? name = some symbol := by
  have htable (statements : List Statement) :
      symbolTable settings statements = usedTable settings statements statements := rfl
  rw [htable, find?_usedTable] at hfind ⊢
  cases hlabel : (labelTable program).find? name with
  | some existing =>
    rw [hlabel, Option.some_or] at hfind
    rw [find?_labelTable_append more hlabel, Option.some_or, hfind]
  | none =>
    rw [hlabel, Option.none_or, Option.ite_none_right_eq_some] at hfind
    obtain ⟨hname, hsymbol⟩ := hfind
    obtain ⟨hoperand, hvariable⟩ := mem_usedVariables_iff.1 hname
    -- A variable of the program is a variable of the extended one, and so no label of it.
    have hvariable' := h.isVariable_append hoperand ▸ hvariable
    obtain ⟨-, hpredefined, hnew⟩ := isVariable_eq_true_iff.1 hvariable'
    have hlabel' : (labelTable (program ++ more)).find? name = none := by
      rw [find?_labelTable, find?_initial_eq_none_iff.2 hpredefined, Option.none_or,
        if_neg fun hmem => hnew (mem_newLabels_iff.1 hmem).1]
    have hname' : name ∈ usedVariables (program ++ more) (program ++ more) :=
      mem_usedVariables_iff.2 ⟨by rw [operands_append]; exact List.mem_append_left _ hoperand,
        hvariable'⟩
    rw [hlabel', Option.none_or, if_pos hname', h.variableSymbol_append hname, hsymbol]

end Denotation

/-! ### Runs -/

open Denotation

variable {settings : Settings} {program more : List Statement} {words : List Word}

/-- If the run of an extended program succeeds, and no operand of the program is a label that only
the further statements declare, then the run of the program alone succeeds. Its words are the first
ones of the extended program, and each of its symbols is a symbol of the extended program, with the
same address and kind and at the same place. -/
theorem generate_append (hrun : (generate settings (program ++ more)).result = .ok words)
    (hkeeps : KeepsOperands program more) :
    ∃ front, (generate settings program).result = .ok front ∧ front <+: words ∧
      ∀ name symbol, (generate settings program).program.symbols.find? name = some symbol →
        (generate settings (program ++ more)).program.symbols.find? name = some symbol := by
  -- No declaration and no instruction of the program fails, since none of the extended one does.
  have hfault : (generate settings program).fault = none := by
    obtain ⟨⟨hconsistent, hannounced⟩, hgood⟩ :=
      generate_fault_eq_none_iff.1 (Run.result_eq_ok_iff.1 hrun).1
    exact generate_fault_eq_none_iff.2
      ⟨⟨hconsistent.of_append, hannounced.of_append⟩, hkeeps.faultless_of_append hgood⟩
  have hfront := Run.result_eq_ok_iff.2 ⟨hfault, rfl⟩
  obtain ⟨hsymbols, hwords⟩ := generate_of_result hrun
  obtain ⟨hsymbols', hwords'⟩ := generate_of_result hfront
  refine ⟨_, hfront, ?_, ?_⟩
  · have hsame : program.filterMap (word? settings (program ++ more)) =
        program.filterMap (word? settings program) :=
      List.filterMap_congr fun s => hkeeps.word?_append
    rw [List.filterMap_append, hsame, hwords'] at hwords
    obtain ⟨front, behind, hsplit, hmap, -⟩ := List.append_eq_map_iff.1 hwords
    obtain rfl := List.map_injective_iff.2 (fun _ _ => Except.ok.inj) hmap
    exact ⟨behind, hsplit.symm⟩
  · intro name symbol hfind
    rw [hsymbols'] at hfind
    rw [hsymbols]
    exact hkeeps.find?_symbolTable_append hfind

/-- Uses a variable and a label at its end. -/
def skipStatements : List Statement :=
  [⟨⟨"a.asm", 1, 1⟩, "@key", .addressLoad "key"⟩,
   ⟨⟨"a.asm", 2, 1⟩, "@END", .addressLoad "END"⟩,
   ⟨⟨"a.asm", 3, 1⟩, "(END)", .label "END"⟩]

/-- Declares that label again, uses that variable again, and has a label and a variable of its own. -/
def waitStatements : List Statement :=
  [⟨⟨"a.asm", 4, 1⟩, "(END)", .label "END"⟩,
   ⟨⟨"a.asm", 5, 1⟩, "@count", .addressLoad "count"⟩,
   ⟨⟨"a.asm", 6, 1⟩, "(WAIT)", .label "WAIT"⟩,
   ⟨⟨"a.asm", 7, 1⟩, "@key", .addressLoad "key"⟩,
   ⟨⟨"a.asm", 8, 1⟩, "@WAIT", .addressLoad "WAIT"⟩]

theorem generate_append_waitStatements :
    (generate .default (skipStatements ++ waitStatements)).result =
        .ok ["0000000000010000", "0000000000000010", "0000000000010001", "0000000000010000",
          "0000000000000011"] ∧
      KeepsOperands skipStatements waitStatements ∧
      (generate .default skipStatements).result = .ok ["0000000000010000", "0000000000000010"] ∧
      ∀ name symbol, (generate .default skipStatements).program.symbols.find? name = some symbol →
        (generate .default (skipStatements ++ waitStatements)).program.symbols.find? name =
          some symbol := by
  have hrun : (generate .default (skipStatements ++ waitStatements)).result =
      .ok ["0000000000010000", "0000000000000010", "0000000000010001", "0000000000010000",
        "0000000000000011"] := by rfl
  have hkeeps : KeepsOperands skipStatements waitStatements := by decide
  obtain ⟨front, hfront, -, hsymbols⟩ := generate_append hrun hkeeps
  exact ⟨hrun, hkeeps, by rfl, hsymbols⟩

end HackToolchain
