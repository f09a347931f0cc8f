import HackToolchain.Program.Output
import HackToolchain.Proofs.Source.Columns
import HackToolchain.Proofs.Symbol.FileReading

/-!
# The variables of a run

Of the symbols that a run has bound, the variables are those of the closed form. Each is the operand
of an instruction, so its name has no blanks; and as no instruction has failed, its address is not
negative. No two variables have the same address.
-/

namespace HackToolchain

open Denotation Text

variable {settings : Settings} {program statements : List Statement} {s : Symbol}
variable {name file : String} {lines : List String} {words : List Word}

namespace Denotation

/-- The variables among the symbols of a program. -/
theorem mem_symbolTable_iff_of_var (hkind : s.kind = .var) :
    s ∈ (symbolTable settings program).entries ↔
      ∃ name ∈ variableNames program, variableSymbol settings program name = s := by
  have hinitial : s ∉ SymbolTable.initial.entries := by
    intro hmem
    obtain ⟨entry, -, rfl⟩ := List.mem_map.1 hmem
    simp at hkind
  have hlabel : s ∉ (newLabels program).map (labelSymbol program) := by
    intro hmem
    obtain ⟨name, -, rfl⟩ := List.mem_map.1 hmem
    simp [labelSymbol] at hkind
  simp only [symbolTable, List.mem_append, hinitial, hlabel, false_or, List.mem_map]

/-- Different variables have different addresses. -/
theorem eq_of_variableAddress_eq {other : String} (hname : name ∈ variableNames program)
    (h : variableAddress settings program name = variableAddress settings program other) :
    name = other :=
  (List.idxOf_inj hname).1 (nthFree_injective h)

/-- The symbols of a program that are variables are determined by their addresses. -/
theorem eq_of_address_eq {t : Symbol} (hs : s ∈ (symbolTable settings program).entries)
    (ht : t ∈ (symbolTable settings program).entries) (hskind : s.kind = .var)
    (htkind : t.kind = .var) (h : s.address = t.address) : s = t := by
  obtain ⟨name, hname, rfl⟩ := (mem_symbolTable_iff_of_var hskind).1 hs
  obtain ⟨other, -, rfl⟩ := (mem_symbolTable_iff_of_var htkind).1 ht
  rw [eq_of_variableAddress_eq hname h]

end Denotation

/-- The name of a variable is an operand, so it has no blanks. -/
theorem isSolid_of_mem_variableNames (hstatements : Statement.ofLines file lines = .ok statements)
    (hname : name ∈ variableNames statements) : IsSolid name.toList ∧ name.toList ≠ [] := by
  obtain ⟨t, ht, hload⟩ := mem_operands_iff.1 (mem_usedVariables_iff.1 hname).1
  obtain ⟨before, after, hsplit⟩ := List.append_of_mem ht
  have hcommand := Statement.commandOf_source hstatements hsplit
  obtain ⟨htext, hne⟩ :=
    Source.operand_eq_ok_iff.1 (Statement.operand_of_commandOf (hload ▸ hcommand))
  refine ⟨?_, hne⟩
  rw [htext]
  exact isSolid_untilBlank

/-- The variables of a run are plain, if their addresses can be written. -/
theorem isPlain_of_mem_symbolTable (hstatements : Statement.ofLines file lines = .ok statements)
    (hresult : (generate settings statements).result = .ok words)
    (hs : s ∈ (symbolTable settings statements).entries) (hkind : s.kind = .var)
    (hwritable : Numeral.isWritable s.address = true) : s.IsPlain := by
  obtain ⟨name, hname, rfl⟩ := (mem_symbolTable_iff_of_var hkind).1 hs
  obtain ⟨hoperand, hvariable⟩ := mem_usedVariables_iff.1 hname
  obtain ⟨hsolid, hne⟩ := isSolid_of_mem_variableNames hstatements hname
  have hfault : (generate settings statements).fault = none := (Run.result_eq_ok_iff.1 hresult).1
  have hnonneg : 0 ≤ addressOf settings statements name :=
    (generate_fault_eq_none_iff.1 hfault).2.addressOf_nonneg
      (isFirstUse_eq_false_iff.2 fun _ => hoperand)
  rw [addressOf_of_isVariable hvariable] at hnonneg
  exact ⟨hsolid, hne, hnonneg, hwritable⟩

end HackToolchain
