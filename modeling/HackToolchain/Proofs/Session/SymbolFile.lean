import HackToolchain.CommandLine.DisassemblerTool
import HackToolchain.Proofs.Program.Variables
import HackToolchain.Proofs.Session.Output
import HackToolchain.Proofs.Text.Decoding

/-!
# Symbol files between the tools

The assembler writes the symbols of a program, and the disassembler reads the file to name variables.
The variables are found again, but for those whose names begin with a number sign: the reader takes
their lines for comments. Nothing else is read if no label has a name that looks like the line of a
variable. One that does is read as a variable, or keeps the file from being read.
-/

namespace HackToolchain

open Text

variable {program p : Program} {words : List Word} {r : Reading} {s : Symbol} {a : Int}
variable {name : String} {m : SymbolMap}

/-! ### Programs -/

theorem SymbolTable.mem_sorted {symbols : List Symbol} : s ∈ sorted symbols ↔ s ∈ symbols := by
  rw [sorted, List.mem_mergeSort]

namespace Program

/-- A variable of the program has the address and the name. -/
def Names (p : Program) (a : Int) (name : String) : Prop :=
  ∃ v ∈ p.symbols.entries, v.kind = .var ∧ v.address = a ∧ v.name = name

/-- The line of a label shows a variable with the address and the name. -/
def Feigns (p : Program) (a : Int) (name : String) : Prop :=
  ∃ l ∈ p.symbols.entries, l.kind = .label ∧ ∃ text, l.Shows name text ∧ Numeral.readInt text = .ok a

/-- The lines of the variables are found again. -/
def HasPlainVariables (p : Program) : Prop :=
  ∀ v ∈ p.symbols.entries, v.kind = .var → v.IsPlain

theorem mem_listedSymbols_iff : s ∈ p.listedSymbols ↔
    s ∈ p.symbols.entries ∧ (s.kind = .var ∨ s.kind = .label) := by
  have hkind : (s.kind != .predefined) = true ↔ s.kind = .var ∨ s.kind = .label := by
    cases s.kind <;> decide
  rw [listedSymbols, SymbolTable.mem_sorted, SymbolTable.own, List.mem_filter, hkind]

/-- The symbol file can be written to its end if the addresses of all its symbols can be. -/
theorem obstacle?_symbols_eq_none_iff : p.obstacle? .symbols = none ↔
    ∀ s ∈ p.symbols.entries, s.kind = .var ∨ s.kind = .label →
      Numeral.isWritable s.address = true := by
  simp only [obstacle?, symbolObstacle?, List.findSome?_eq_none_iff, numberObstacle?_eq_none_iff,
    mem_listedSymbols_iff, and_imp]

/-- The symbol file names an address after a variable, unless its line is a comment, or as a label
looks like naming it. -/
theorem exists_shows_iff (hplain : p.HasPlainVariables) :
    (∃ s ∈ p.listedSymbols, ∃ text, s.Shows name text ∧ Numeral.readInt text = .ok a) ↔
      (p.Names a name ∧ name.toList.head? ≠ some '#') ∨ p.Feigns a name := by
  constructor
  · rintro ⟨s, hs, text, hshows, hread⟩
    obtain ⟨hmem, hvar | hlabel⟩ := mem_listedSymbols_iff.1 hs
    · obtain ⟨⟨-, hsign⟩, rfl, rfl⟩ := (hplain s hmem hvar).shows_iff.1 hshows
      obtain ⟨-, -, haddress⟩ := (hplain s hmem hvar).isSolid_address
      obtain rfl := Except.ok.inj (haddress.symm.trans hread)
      exact .inl ⟨⟨s, hmem, hvar, rfl, rfl⟩, hsign⟩
    · exact .inr ⟨s, hmem, hlabel, text, hshows, hread⟩
  · rintro (⟨⟨v, hmem, hvar, rfl, rfl⟩, hsign⟩ | ⟨l, hmem, hlabel, text, hshows, hread⟩)
    · obtain ⟨-, -, haddress⟩ := (hplain v hmem hvar).isSolid_address
      exact ⟨v, mem_listedSymbols_iff.2 ⟨hmem, .inl hvar⟩, toString v.address,
        (hplain v hmem hvar).shows_iff.2 ⟨⟨hvar, hsign⟩, rfl, rfl⟩, haddress⟩
    · exact ⟨l, mem_listedSymbols_iff.2 ⟨hmem, .inr hlabel⟩, text, hshows, hread⟩

/-- Only a label can keep a symbol file from being read. -/
theorem exists_ofFileText_symbolText_iff_label (hplain : p.HasPlainVariables) :
    (∃ m, SymbolMap.ofFileText p.symbolText = .ok m) ↔
      ∀ l ∈ p.symbols.entries, l.kind = .label → ∀ name text, l.Shows name text →
        ∃ a, Numeral.readInt text = .ok a := by
  rw [exists_ofFileText_symbolText_iff]
  constructor
  · intro h l hmem hlabel
    exact h l (mem_listedSymbols_iff.2 ⟨hmem, .inr hlabel⟩)
  · intro h s hs name text hshows
    obtain ⟨hmem, hvar | hlabel⟩ := mem_listedSymbols_iff.1 hs
    · obtain ⟨-, -, rfl⟩ := (hplain s hmem hvar).shows_iff.1 hshows
      obtain ⟨-, -, haddress⟩ := (hplain s hmem hvar).isSolid_address
      exact ⟨s.address, haddress⟩
    · exact h s hmem hlabel name text hshows

/-- What is read for an address is the name of a variable, or what a label looks like naming it. -/
theorem names_or_feigns_of_lookup (hplain : p.HasPlainVariables)
    (h : SymbolMap.ofFileText p.symbolText = .ok m) (hlookup : m.lookup a = some name) :
    (p.Names a name ∧ name.toList.head? ≠ some '#') ∨ p.Feigns a name :=
  (exists_shows_iff hplain).1 (exists_shows_of_lookup h hlookup)

/-- An address is named if a variable names it or a label looks like naming it. -/
theorem isSome_lookup_iff (hplain : p.HasPlainVariables)
    (h : SymbolMap.ofFileText p.symbolText = .ok m) : (m.lookup a).isSome = true ↔
      ∃ name, (p.Names a name ∧ name.toList.head? ≠ some '#') ∨ p.Feigns a name := by
  constructor
  · intro hsome
    obtain ⟨name, hlookup⟩ := Option.isSome_iff_exists.1 hsome
    exact ⟨name, names_or_feigns_of_lookup hplain h hlookup⟩
  · rintro ⟨name, hname⟩
    obtain ⟨s, hs, text, hshows, hread⟩ := (exists_shows_iff hplain).2 hname
    exact isSome_lookup_of_shows h hs hshows hread

/-- If no label shows a variable, the variables are read whose names do not begin with a number
sign. -/
theorem lookup_ofFileText_symbolText_iff (hplain : p.HasPlainVariables)
    (hlabels : ∀ l ∈ p.symbols.entries, l.kind = .label → ∀ name text, ¬ l.Shows name text)
    (hunique : ∀ name other, p.Names a name → p.Names a other → name = other)
    (h : SymbolMap.ofFileText p.symbolText = .ok m) :
    m.lookup a = some name ↔ p.Names a name ∧ name.toList.head? ≠ some '#' := by
  have hfeigns (name : String) : ¬ p.Feigns a name := by
    rintro ⟨l, hmem, hlabel, text, hshows, -⟩
    exact hlabels l hmem hlabel name text hshows
  constructor
  · intro hlookup
    exact (names_or_feigns_of_lookup hplain h hlookup).resolve_right (hfeigns name)
  · intro hname
    -- Some variable is read for the address, and no other has it.
    obtain ⟨other, hlookup⟩ :=
      Option.isSome_iff_exists.1 ((isSome_lookup_iff hplain h).2 ⟨name, .inl hname⟩)
    have hother := (names_or_feigns_of_lookup hplain h hlookup).resolve_right (hfeigns other)
    rw [hlookup, hunique name other hname.1 hother.1]

end Program

/-! ### Programs of lines that were assembled -/

namespace Reading.Yields

theorem hasPlainVariables (h : r.Yields program words)
    (hobstacle : program.obstacle? .symbols = none) :
    program.HasPlainVariables := by
  obtain ⟨statements, ⟨hstatements, -⟩, hresult, rfl⟩ := h
  intro v hmem hvar
  have hwritable := Program.obstacle?_symbols_eq_none_iff.1 hobstacle v hmem (.inl hvar)
  rw [(generate_of_result hresult).1] at hmem
  exact isPlain_of_mem_symbolTable hstatements hresult hmem hvar hwritable

/-- No two variables have the same address. -/
theorem eq_of_names {other : String} (h : r.Yields program words) (hname : program.Names a name)
    (hother : program.Names a other) : name = other := by
  obtain ⟨statements, -, hresult, rfl⟩ := h
  obtain ⟨v, hv, hvar, rfl, rfl⟩ := hname
  obtain ⟨w, hw, hwar, haddress, rfl⟩ := hother
  rw [(generate_of_result hresult).1] at hv hw
  exact congrArg Symbol.name <| Denotation.eq_of_address_eq hv hw hvar hwar haddress.symm

end Reading.Yields

/-! ### Files -/

/-- The disassembler reads what the symbol file says. -/
theorem DisassemblerTool.readSymbols_of_read {asked : DisassemblerTool.Request} {d : Directory}
    {path : Path} {text : String} (hasked : asked.symbols = some path)
    (h : d.read path.text = .ok (Utf8.encode text)) :
    DisassemblerTool.readSymbols asked d = (SymbolMap.ofFileText text).mapError Failure.numeral := by
  have htext : readText d path = .ok text := by
    have hdecode : (Utf8.decodeAll (Utf8.encode text)).mapError Failure.undecodableText = .ok text := by
      rw [Utf8.decodeAll_encode]
      rfl
    rw [readText, h]
    exact hdecode
  rw [readSymbols, hasked]
  simp only [htext]
  rfl

namespace Session

/-- Whatever has happened in a session, if the symbol file is written, it holds the symbols of the
last lines that were read, and the disassembler reads it unless a label shows a variable with an
address that is none. Every name that it reads is that of a variable, which does not begin with a
number sign, or comes from a label that shows one; and every address is named that has such a name. So
without such labels, exactly the variables are read that do not begin with a number sign. -/
theorem readSymbols_of_written (settings : Settings) (directory : Directory)
    (requests : List Request) {path : Path} {asked : DisassemblerTool.Request}
    (hwritten : (((start settings directory).after requests).perform
      (.write .symbols path.text)).2 = .written path.text)
    (hasked : asked.symbols = some path) :
    let s := (start settings directory).after requests
    let program := s.assembler.program
    let labels := program.symbols.entries.filter fun l => l.kind = .label
    let read := DisassemblerTool.readSymbols asked (s.perform (.write .symbols path.text)).1.directory
    (∃ c r words, lastReading ((start settings directory).calls requests) = some c ∧
        c.reading = some r ∧ c.answer = .words words ∧ r.Yields program words) ∧
      ((∃ m, read = .ok m) ↔
        ∀ l ∈ labels, ∀ name text, l.Shows name text → ∃ a, Numeral.readInt text = .ok a) ∧
      (∀ m, read = .ok m → ∀ a,
        (∀ name, m.lookup a = some name →
          (program.Names a name ∧ name.toList.head? ≠ some '#') ∨ program.Feigns a name) ∧
        ((m.lookup a).isSome = true ↔
          ∃ name, (program.Names a name ∧ name.toList.head? ≠ some '#') ∨ program.Feigns a name)) ∧
      ((∀ l ∈ labels, ∀ name text, ¬ l.Shows name text) → ∃ m, read = .ok m ∧
        ∀ a name, m.lookup a = some name ↔
          program.Names a name ∧ name.toList.head? ≠ some '#') := by
  intro s program labels read
  have hreflects : s.Reflects ((start settings directory).calls requests) :=
    reflects_after settings directory requests
  have hkind : Request.output? (.write .symbols path.text) = some .symbols := rfl
  obtain ⟨hready, -, -, hobstacle⟩ := (answer_eq_written_iff hkind).1 hwritten
  obtain ⟨c, words, hc, hanswer⟩ := hreflects.ready_iff.1 hready
  obtain ⟨r, hr, hyields⟩ := hreflects.yields c words hc hanswer
  have hplain : program.HasPlainVariables := hyields.hasPlainVariables hobstacle
  have hread (m : SymbolMap) : read = .ok m ↔ SymbolMap.ofFileText program.symbolText = .ok m := by
    have hfile := DisassemblerTool.readSymbols_of_read hasked (read_of_written hkind hwritten)
    rw [show read = _ from hfile, mapError_eq_ok_iff]
    rfl
  have hreadable : (∃ m, read = .ok m) ↔
      ∀ l ∈ labels, ∀ name text, l.Shows name text → ∃ a, Numeral.readInt text = .ok a := by
    simp only [hread, Program.exists_ofFileText_symbolText_iff_label hplain, labels,
      List.mem_filter, decide_eq_true_eq, and_imp]
  refine ⟨⟨c, r, words, hc, hr, hanswer, hyields⟩, hreadable, ?_, ?_⟩
  · intro m hm a
    rw [hread] at hm
    exact ⟨fun name => Program.names_or_feigns_of_lookup hplain hm,
      Program.isSome_lookup_iff hplain hm⟩
  · intro hlabels
    obtain ⟨m, hm⟩ := hreadable.2 fun l hl name text hshows =>
      absurd hshows (hlabels l hl name text)
    refine ⟨m, hm, fun a name => ?_⟩
    refine Program.lookup_ofFileText_symbolText_iff hplain ?_ (fun _ _ => hyields.eq_of_names)
      ((hread m).1 hm)
    intro l hmem hlabel
    exact hlabels l (List.mem_filter.2 ⟨hmem, by simpa using hlabel⟩)

/-- The path of a symbol file. -/
def symbolPath : Path := .ofText "a.sym"

/-- The request to disassemble with the symbol file. -/
def symbolRequest : DisassemblerTool.Request :=
  { input := .ofText "a.hack", symbols := some symbolPath }

/-- The request to assemble a text with a label and a variable. -/
def loopRequests : List Request := [.assembleText "a.asm" "(LOOP)\n@x\n@LOOP"]

theorem readSymbols_of_loopRequests :
    (((start .default .empty).after loopRequests).perform (.write .symbols symbolPath.text)).2 =
        .written symbolPath.text ∧
      symbolRequest.symbols = some symbolPath ∧
        ∃ m, DisassemblerTool.readSymbols symbolRequest (((start .default .empty).after
            loopRequests).perform (.write .symbols symbolPath.text)).1.directory = .ok m ∧
          ∀ a name, m.lookup a = some name ↔
            ((start .default .empty).after loopRequests).assembler.program.Names a name ∧
              name.toList.head? ≠ some '#' := by
  have hready : ((start .default .empty).after loopRequests).assembler.ready = true := by
    decide +kernel
  have htarget : ((start .default .empty).after loopRequests).directory.target symbolPath.text =
      .ok ["a.sym"] := by
    decide +kernel
  have hwritable : ∀ s ∈ ((start .default .empty).after loopRequests).assembler.program.symbols.entries,
      Numeral.isWritable s.address = true := by
    decide +kernel
  have hlabels : ∀ l ∈ ((start .default .empty).after
      loopRequests).assembler.program.symbols.entries.filter fun l => l.kind = .label,
      ∀ line ∈ lines l.fileLine, SymbolMap.variableOf? line = none := by
    decide +kernel
  have hobstacle := Program.obstacle?_symbols_eq_none_iff.2 fun s hs _ => hwritable s hs
  have hkind : Request.output? (.write .symbols symbolPath.text) = some .symbols := rfl
  have hwritten := (answer_eq_written_iff hkind).2 ⟨hready, rfl, ⟨_, htarget⟩, hobstacle⟩
  have hsymbols : symbolRequest.symbols = some symbolPath := rfl
  obtain ⟨-, -, -, hread⟩ := readSymbols_of_written .default .empty loopRequests hwritten hsymbols
  refine ⟨hwritten, hsymbols, hread fun l hl name text hshows => ?_⟩
  obtain ⟨line, hline, hentry⟩ := Symbol.shows_iff.1 hshows
  simp [hlabels l hl line hline] at hentry

/-- A variable that begins with a number sign is not read, a label is read as a variable, and a label
keeps the file from being read. -/
theorem readSymbols_of_disguised :
    let assembled (text : String) := (start .default .empty).after [.assembleText "a.asm" text]
    let named (text : String) :=
      ((assembled text).assembler.program.symbols.ofKind (some .var)).map fun v => (v.address, v.name)
    let behind (text : String) := (assembled text).perform (.write .symbols symbolPath.text)
    let read (text : String) :=
      DisassemblerTool.readSymbols symbolRequest (behind text).1.directory
    ((behind "@#x").2 = .written symbolPath.text ∧ named "@#x" = [(16, "#x")] ∧
        read "@#x" = .ok []) ∧
      ((behind "(a 5 variable)").2 = .written symbolPath.text ∧ named "(a 5 variable)" = [] ∧
        read "(a 5 variable)" = .ok [(5, "a")]) ∧
      (behind "(x y variable)").2 = .written symbolPath.text ∧ named "(x y variable)" = [] ∧
        read "(x y variable)" = .error (.numeral (.malformed "y")) := by
  intro assembled named behind read
  decide +kernel

end Session

end HackToolchain
