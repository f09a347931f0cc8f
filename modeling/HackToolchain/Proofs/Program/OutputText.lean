import HackToolchain.Program.Output
import HackToolchain.Proofs.Program.Agreement
import HackToolchain.Proofs.Text.Layout

/-!
# The texts of a run

What the output files of a run hold is fixed by its statements, its words and its settings. The
machine code is made of the words. The listing has a row for each statement, and the instructions take
the words one after another; the labels and the variables follow in the order of their names, as they
do in the symbol file.

A file that is left at an obstacle holds a beginning of what it would have held.
-/

namespace HackToolchain

open Denotation Text

variable {settings : Settings} {statements : List Statement} {lines : List ListingLine}
variable {words : List Word} {address : Nat} {kind : OutputKind}

/-! ### Rows -/

/-- The rows of a listing of some statements behind `address` instructions. An instruction takes the
next word, which is shown with its number. The row of another statement begins with blanks. -/
inductive Rows : Nat → List Statement → List Word → List String → Prop where
  | nil {address : Nat} : Rows address [] [] []
  | instruction {address : Nat} {s : Statement} {statements : List Statement} {word : Word}
      {words : List Word} {rows : List String} (hs : s.command.isInstruction = true)
      (hrest : Rows (address + 1) statements words rows) :
      Rows address (s :: statements) (word :: words)
        ((alignRight 5 (toString address) ++ "   " ++ word ++ "  " ++
          alignRight 4 (toString s.location.line) ++ "  " ++ s.source) :: rows)
  | other {address : Nat} {s : Statement} {statements : List Statement} {words : List Word}
      {rows : List String} (hs : s.command.isInstruction = false)
      (hrest : Rows address statements words rows) :
      Rows address (s :: statements) words
        ((spaces 24 ++ "  " ++ alignRight 4 (toString s.location.line) ++ "  " ++ s.source) :: rows)

/-- The lines of a listing are shown as its rows. -/
theorem Listed.rows (h : Listed address statements lines) :
    Rows address statements (lines.filterMap (·.word)) (lines.map ListingLine.text) := by
  induction h with
  | nil => exact .nil
  | @cons address s word statements lines hword hrest ih =>
    cases word with
    | none => exact .other hword.symm ih
    | some word => exact .instruction hword.symm ih

/-! ### Symbols -/

/-- The labels and the variables of a program, in the order of their names. -/
structure IsIndex (settings : Settings) (program : List Statement) (symbols : List Symbol) : Prop where
  perm : symbols.Perm ((newLabels program).map (labelSymbol program) ++
    (variableNames program).map (variableSymbol settings program))
  ordered : symbols.Pairwise fun s t => s.name ≤ t.name

namespace SymbolTable

theorem perm_sorted (symbols : List Symbol) : (sorted symbols).Perm symbols :=
  List.mergeSort_perm symbols _

theorem pairwise_sorted (symbols : List Symbol) :
    (sorted symbols).Pairwise fun s t => s.name ≤ t.name := by
  have hsorted : (sorted symbols).Pairwise fun s t => decide (s.name ≤ t.name) = true := by
    refine List.pairwise_mergeSort (fun s t u hst htu => ?_) (fun s t => ?_) symbols
    · rw [decide_eq_true_eq] at hst htu ⊢
      exact String.le_trans hst htu
    · rw [Bool.or_eq_true, decide_eq_true_eq, decide_eq_true_eq]
      exact String.le_total s.name t.name
  exact hsorted.imp fun h => of_decide_eq_true h

/-- The predefined symbols are not among those of the program's own. -/
theorem own_symbolTable : (symbolTable settings statements).own =
    (newLabels statements).map (labelSymbol statements) ++
      (variableNames statements).map (variableSymbol settings statements) := by
  have hinitial : initial.entries.filter (fun s => s.kind != .predefined) = [] := by decide +kernel
  rw [own, symbolTable, List.filter_append, List.filter_append, hinitial, List.nil_append]
  congr 1
  · exact List.filter_eq_self.2 (by simp [labelSymbol])
  · exact List.filter_eq_self.2 (by simp [variableSymbol])

end SymbolTable

/-- The symbols that a run lists. -/
theorem isIndex_listedSymbols (h : (generate settings statements).result = .ok words) :
    IsIndex settings statements (generate settings statements).program.listedSymbols := by
  rw [Program.listedSymbols, (generate_of_result h).1]
  exact ⟨SymbolTable.own_symbolTable ▸ SymbolTable.perm_sorted _, SymbolTable.pairwise_sorted _⟩

/-! ### Files -/

/-- The output file of a kind that belongs to a program and its words. -/
inductive Prints (settings : Settings) (program : List Statement) (words : List Word) :
    OutputKind → String → Prop where
  | code : Prints settings program words .code (closeLines words)
  | listing {rows : List String} {symbols : List Symbol} (hrows : Rows 0 program words rows)
      (hsymbols : IsIndex settings program symbols) :
      Prints settings program words .listing (closeLines (Program.listingHead ++ rows ++
        Program.symbolHead ++ symbols.map fun s => alignLeft 20 s.name ++ " = " ++
          alignRight 5 (toString s.address) ++ "  (" ++ s.kind.name ++ ")"))
  | symbols {symbols : List Symbol} (hsymbols : IsIndex settings program symbols) :
      Prints settings program words .symbols (closeLines (Program.symbolFileHead ++
        symbols.map fun s => s.name ++ " " ++ toString s.address ++ " " ++ s.kind.name))

/-- A run that succeeds prints its statements and words. -/
theorem prints_outputText (h : (generate settings statements).result = .ok words)
    (kind : OutputKind) : Prints settings statements words kind
      ((generate settings statements).program.outputText kind) := by
  have hwords : (generate settings statements).program.words = words := (Run.result_eq_ok_iff.1 h).2
  cases kind with
  | code =>
    rw [Program.outputText, Program.codeText, hwords]
    exact .code
  | listing =>
    have hrows := (listed_of_result h).1.rows
    rw [← Program.words, hwords] at hrows
    rw [Program.outputText, Program.listingText,
      joinLines_append_newline (by simp [Program.listingHead])]
    exact .listing hrows (isIndex_listedSymbols h)
  | symbols => exact .symbols (isIndex_listedSymbols h)

namespace Program

/-- What is written before an obstacle is a beginning of the text. -/
theorem exists_outputText_eq_append (p : Program) (kind : OutputKind) :
    ∃ rest, p.outputText kind = p.textBeforeObstacle kind ++ rest := by
  cases kind with
  | code => exact ⟨"", (String.append_empty ..).symm⟩
  | listing => exact ⟨_, (String.empty_append ..).symm⟩
  | symbols =>
    refine ⟨closeLines ((p.listedSymbols.dropWhile fun s => Numeral.isWritable s.address).map
      Symbol.fileLine), ?_⟩
    rw [outputText, symbolText, textBeforeObstacle, ← closeLines_append, List.append_assoc,
      ← List.map_append, List.takeWhile_append_dropWhile]

end Program

end HackToolchain
