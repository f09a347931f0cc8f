import HackToolchain.Proofs.Program.History
import HackToolchain.Proofs.Program.Passes

/-!
# The two passes agree

The first pass counts instructions by what the statements are, the second one by the words that it
has produced. If a run succeeds, both numbers are the same at every statement: each instruction has
got a word, and no other statement has. So a label is declared where the table says.
-/

namespace HackToolchain

open Denotation

variable {settings : Settings} {statements : List Statement} {s : Statement} {b b' : Bindings}
variable {lines : List ListingLine} {words : List Word} {word : Option Word} {address k : Nat}

/-! ### The listing -/

/-- Lines that list some statements behind `address` instructions. Each line has the place and the
text of its statement and the number of the words before it, and it has a word of its own exactly if
the statement is an instruction. -/
inductive Listed : Nat → List Statement → List ListingLine → Prop where
  | nil {address : Nat} : Listed address [] []
  | cons {address : Nat} {s : Statement} {word : Option Word} {statements : List Statement}
      {lines : List ListingLine} (hword : word.isSome = s.command.isInstruction)
      (hrest : Listed (address + word.toList.length) statements lines) :
      Listed address (s :: statements) (⟨s.location, s.source, address, word⟩ :: lines)

/-- Exactly the instructions are encoded as words. -/
theorem Bindings.isSome_of_encode (h : b.encode settings s = (b', .ok word)) :
    word.isSome = s.command.isInstruction := by
  rcases encode_eq_ok_cases h with ⟨operand, address, hs, -, hword⟩ | ⟨fields, hs, -, hword⟩ |
    ⟨hs, -, rfl⟩
  · have hsome := congrArg Option.isSome hword
    rw [Option.isSome_map] at hsome
    rw [← hsome, hs]
    rfl
  · have hsome := congrArg Option.isSome hword
    rw [Option.isSome_map] at hsome
    rw [← hsome, hs]
    rfl
  · exact hs.symm

/-- A second pass that comes to its end lists its statements. -/
theorem listed_emit (h : (emit settings b address statements).fault = none) :
    Listed address statements (emit settings b address statements).listing := by
  induction statements generalizing b address with
  | nil => exact .nil
  | cons s rest ih =>
    rw [emit] at h ⊢
    cases hencode : b.encode settings s with
    | mk bound result =>
      cases result with
      | error i => simp [hencode] at h
      | ok word =>
        simp only [hencode] at h ⊢
        have hnext : (if word.isSome then address + 1 else address) =
            address + word.toList.length := by
          cases word <;> rfl
        rw [hnext] at h ⊢
        exact .cons (Bindings.isSome_of_encode hencode) (ih h)

theorem filterMap_word_cons (line : ListingLine) (lines : List ListingLine) :
    (line :: lines).filterMap (·.word) = line.word.toList ++ lines.filterMap (·.word) := by
  cases h : line.word <;> simp [h]

theorem instructionCount_cons : instructionCount (s :: statements) =
    (if s.command.isInstruction then 1 else 0) + instructionCount statements := by
  rw [instructionCount, List.countP_cons, Nat.add_comm, instructionCount]

namespace Listed

theorem map_eq (h : Listed address statements lines) :
    lines.map (fun line => (line.location, line.source, line.word.isSome)) =
      statements.map fun s => (s.location, s.source, s.command.isInstruction) := by
  induction h with
  | nil => rfl
  | cons hword hrest ih => rw [List.map_cons, List.map_cons, ih, hword]

/-- There are as many words as instructions. -/
theorem length_words (h : Listed address statements lines) :
    (lines.filterMap (·.word)).length = instructionCount statements := by
  induction h with
  | nil => rfl
  | cons hword hrest ih =>
    rw [filterMap_word_cons, List.length_append, ih, instructionCount_cons, ← hword,
      Option.length_toList]

/-- The lines with a word are numbered without gaps. -/
theorem filterMap_eq_zipIdx (h : Listed address statements lines) :
    lines.filterMap (fun line => line.word.map (·, line.address)) =
      (lines.filterMap (·.word)).zipIdx address := by
  induction h with
  | nil => rfl
  | @cons address s word statements lines hword hrest ih =>
    cases word with
    | none => simpa using ih
    | some w => simpa using ih

/-- Every statement has its line, behind as many words as there are instructions before it. -/
theorem exists_line (h : Listed address statements lines) (hs : statements[k]? = some s) :
    ∃ line, lines[k]? = some line ∧
      line.address = address + ((lines.take k).filterMap (·.word)).length ∧
      ((lines.take k).filterMap (·.word)).length = instructionCount (statements.take k) := by
  induction h generalizing k with
  | nil => simp at hs
  | @cons address first word statements lines hword hrest ih =>
    cases k with
    | zero => exact ⟨_, rfl, rfl, rfl⟩
    | succ k =>
      rw [List.getElem?_cons_succ] at hs
      obtain ⟨line, hline, haddress, hcount⟩ := ih hs
      refine ⟨line, hline, ?_, ?_⟩
      · rw [haddress, List.take_succ_cons, filterMap_word_cons, List.length_append, Nat.add_assoc]
      · rw [List.take_succ_cons, List.take_succ_cons, filterMap_word_cons, List.length_append,
          hcount, instructionCount_cons, ← hword, Option.length_toList]

end Listed

/-! ### Runs -/

/-- The second pass of a run that succeeds comes to its end, and the run keeps its listing. -/
theorem listed_of_result (h : (generate settings statements).result = .ok words) :
    Listed 0 statements (generate settings statements).program.listing ∧
      (generate settings statements).program.instructionCount = instructionCount statements := by
  obtain ⟨hfault, -⟩ := Run.result_eq_ok_iff.1 h
  simp only [generate, bindLabels_of_result h] at hfault ⊢
  exact ⟨listed_emit hfault, trivial⟩

/-- A label that a run has bound is declared behind as many instructions as its address says. -/
theorem lookup_of_result {name : String} (h : (generate settings statements).result = .ok words)
    (hs : statements[k]? = some s) (hlabel : s.command = .label name) :
    (labelTable statements).lookup name = .ok (instructionCount (statements.take k)) := by
  obtain ⟨hk, rfl⟩ := List.getElem?_eq_some_iff.1 hs
  have hsplit : statements = statements.take k ++ statements[k] :: statements.drop (k + 1) := by
    rw [← List.drop_eq_getElem_cons hk, List.take_append_drop]
  have hfault : (bindLabels (labelTable []) (instructionCount [])
      (statements.take k ++ statements[k] :: statements.drop (k + 1))).fault = none := by
    rw [← hsplit, labelTable_nil]
    exact congrArg Labelling.fault (bindLabels_of_result h)
  have hlookup := lookup_labelTable_of_bindLabels hfault hlabel
  rwa [List.nil_append, List.nil_append, ← hsplit] at hlookup

namespace Generator

/-- In a run that succeeds, there are as many words as the first pass has counted instructions. The
listing has a line for every statement, in order; its lines with a word carry the addresses from 0
upwards and the words of the run. A label, declared again or predefined as it may be, is listed
behind as many words as both the first pass and the final table have as its address. -/
theorem passes_agree {g : Generator} (h : (g.generate statements).2 = .ok words) :
    let first := (g.reset.bindLabels statements).1
    let last := (g.generate statements).1
    (words.length = first.instructionCount ∧ last.instructionCount = first.instructionCount) ∧
    last.listing.map (fun line => (line.location, line.source, line.word.isSome)) =
      statements.map (fun s => (s.location, s.source, s.command.isInstruction)) ∧
    last.listing.filterMap (fun line => line.word.map (·, line.address)) = words.zipIdx ∧
    ∀ k s name, statements[k]? = some s → s.command = .label name →
      ∃ line, last.listing[k]? = some line ∧
        line.address = ((last.listing.take k).filterMap (·.word)).length ∧
        first.symbols.lookup name = .ok line.address ∧
        last.symbols.lookup name = .ok line.address := by
  intro first last
  rw [result_generate] at h
  have hlabels := bindLabels_of_result h
  have hfirst : first.symbols = labelTable statements ∧
      first.instructionCount = Denotation.instructionCount statements := by
    simp only [first, bindLabels, reset_eq_start, start, hlabels, and_self]
  have hlast : last.program = (HackToolchain.generate g.settings statements).program := by
    simp only [last, program_generate, Run.kept, (Run.result_eq_ok_iff.1 h).1]
  have hlisting : last.listing = (HackToolchain.generate g.settings statements).program.listing :=
    congrArg Program.listing hlast
  have hwords : last.listing.filterMap (·.word) = words := by
    rw [hlisting]
    exact (Run.result_eq_ok_iff.1 h).2
  have hsymbols : last.symbols = symbolTable g.settings statements :=
    (congrArg Program.symbols hlast).trans (generate_of_result h).1
  obtain ⟨hlisted, hcount⟩ := listed_of_result h
  rw [← hlisting] at hlisted
  refine ⟨⟨?_, ?_⟩, hlisted.map_eq, ?_, ?_⟩
  · rw [hfirst.2, ← hwords, hlisted.length_words]
  · rw [hfirst.2, ← hcount]
    exact congrArg Program.instructionCount hlast
  · rw [hlisted.filterMap_eq_zipIdx, hwords]
  · intro k s name hs hlabel
    obtain ⟨line, hline, haddress, hbefore⟩ := hlisted.exists_line hs
    rw [Nat.zero_add] at haddress
    have hlookup := lookup_of_result h hs hlabel
    rw [← hbefore, ← haddress] at hlookup
    refine ⟨line, hline, haddress, ?_, ?_⟩
    · rw [hfirst.1, hlookup]
    · rw [hsymbols]
      exact lookup_usedTable_of_labelTable hlookup

/-- A remark, a label on a predefined name and a label that is declared twice, between the
instructions of a loop. -/
def loopStatements : List Statement :=
  [⟨⟨"a.asm", 1, 1⟩, "(SP)", .label "SP"⟩,
   ⟨⟨"a.asm", 2, 1⟩, "@END", .addressLoad "END"⟩,
   ⟨⟨"a.asm", 3, 1⟩, "// wait", .remark⟩,
   ⟨⟨"a.asm", 4, 1⟩, "(END)", .label "END"⟩,
   ⟨⟨"a.asm", 5, 1⟩, "(END)", .label "END"⟩,
   ⟨⟨"a.asm", 6, 1⟩, "0;JMP", .compute ⟨none, "0", some "JMP", 1, 3⟩⟩]

def loopWords : List Word :=
  ["0000000000000001", "1110101010000111"]

theorem passes_agree_loopStatements :
    ((start .default).generate loopStatements).2 = .ok loopWords ∧
      let first := ((start .default).reset.bindLabels loopStatements).1
      let last := ((start .default).generate loopStatements).1
      first.instructionCount = 2 ∧ last.listing.filterMap (·.word) = loopWords ∧
        ∃ line, last.listing[4]? = some line ∧ line.address = 1 ∧
          first.symbols.lookup "END" = .ok line.address ∧
          last.symbols.lookup "END" = .ok line.address := by
  have h : ((start .default).generate loopStatements).2 = .ok loopWords := by rfl
  obtain ⟨⟨hlength, -⟩, -, -, hlabels⟩ := passes_agree h
  obtain ⟨line, hline, haddress, hfirst, hlast⟩ := hlabels 4 _ "END" rfl rfl
  exact ⟨h, hlength.symm, rfl, line, hline, haddress, hfirst, hlast⟩

end Generator

end HackToolchain
