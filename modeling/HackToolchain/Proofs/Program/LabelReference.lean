import HackToolchain.Proofs.Program.WordFormat

/-!
# Labels as operands

A label may have any name without a closing parenthesis, and it is referenced by an address load
whose operand is that name. The declaration may stand before or behind the reference, it may be
repeated, and its name may be predefined: a run that succeeds has the address of the label in the
word.

One kind of name is beyond reach. An operand of digits stands for its own number, and no label is
looked up, so a label with such a name is declared in vain, unless the number happens to be its
address.
-/

namespace HackToolchain

open Denotation Text

variable {settings : Settings} {program statements before after above below : List Statement}
variable {s d : Statement} {operand : String} {words : List Word} {address : Int}

namespace Denotation

/-- There are as many words as instructions. -/
theorem length_filterMap_word? (settings : Settings) (program statements : List Statement) :
    (statements.filterMap (word? settings program)).length = instructionCount statements := by
  rw [List.length_filterMap_eq_countP, instructionCount]
  exact List.countP_congr fun s _ => by rw [isSome_word?]

/-- The word of an instruction stands behind as many words as there are instructions before it. -/
theorem getElem?_words {result : Except Cause Word}
    (h : statements.filterMap (word? settings program) = words.map Except.ok)
    (hsplit : statements = before ++ s :: after)
    (hword : word? settings program s = some result) :
    ∃ w, words[instructionCount before]? = some w ∧ result = .ok w := by
  rw [hsplit, List.filterMap_append, List.filterMap_cons, hword] at h
  have hentry : (words.map Except.ok)[instructionCount before]? = some result := by
    rw [← h, ← length_filterMap_word? settings program before,
      List.getElem?_append_right (Nat.le_refl _),
      Nat.sub_self, List.getElem?_cons_zero]
  rw [List.getElem?_map, Option.map_eq_some_iff] at hentry
  obtain ⟨w, hw, hresult⟩ := hentry
  exact ⟨w, hw, hresult.symm⟩

/-- A name that the symbols of a program bind resolves the operands that are this name. -/
theorem addressOf_of_lookup (hliteral : Numeral.isLiteral operand = false)
    (h : (symbolTable settings program).lookup operand = .ok address) :
    addressOf settings program operand = address := by
  have hbound := SymbolTable.contains_of_lookup h
  exact Except.ok.inj ((lookup_usedTable hliteral hbound).symm.trans h)

end Denotation

namespace Generator

/-- In a run that succeeds, an address load whose operand is the name of a declared label encodes the
address of the label, wherever this or another declaration of it stands. A literal does not: it
encodes its own number, so it encodes the address of a label of this name exactly if they are the
same. -/
theorem label_reference {g : Generator} (h : (g.generate statements).2 = .ok words)
    (hload : statements = before ++ s :: after) (hs : s.command = .addressLoad operand)
    (hdeclared : statements = above ++ d :: below) (hd : d.command = .label operand) :
    let place := Denotation.instructionCount before
    let address := Denotation.instructionCount above
    let number := Nat.ofDigitChars 10 operand.toList 0
    (g.generate statements).1.symbols.lookup operand = .ok address ∧
    ∃ w, words[place]? = some w ∧
      (Numeral.isLiteral operand = false → Word.ofAddress address g.settings.limit = .ok w) ∧
      (Numeral.isLiteral operand = true → Word.ofAddress number g.settings.limit = .ok w ∧
        (Word.ofAddress address g.settings.limit = .ok w ↔ number = address)) := by
  intro place address number
  rw [result_generate] at h
  obtain ⟨hwords, hsymbols, hlabels⟩ := generate_eq_denotation h
  have hlookup : (symbolTable g.settings statements).lookup operand = .ok address :=
    hlabels above d below operand hdeclared hd
  have hprogram : (g.generate statements).1.symbols = symbolTable g.settings statements := by
    rw [← hsymbols, generate_eq, Run.kept, (Run.result_eq_ok_iff.1 h).1]
    rfl
  have hword : word? g.settings statements s =
      some (Word.ofAddress (addressOf g.settings statements operand) g.settings.limit) := by
    rw [word?, hs]
  obtain ⟨w, hw, hencoded⟩ := getElem?_words hwords hload hword
  refine ⟨hprogram ▸ hlookup, w, hw, fun hliteral => ?_, fun hliteral => ?_⟩
  · rwa [addressOf_of_lookup hliteral hlookup] at hencoded
  · have hnumber : addressOf g.settings statements operand = number := by
      rw [addressOf, if_pos hliteral]
    rw [hnumber] at hencoded
    refine ⟨hencoded, fun haddress => ?_, fun hsame => hsame ▸ hencoded⟩
    -- One word has one value, so both numbers are that of the word.
    obtain ⟨-, rfl⟩ := Word.ofAddress_eq_ok_iff.1 hencoded
    obtain ⟨-, hsame⟩ := Word.ofAddress_eq_ok_iff.1 haddress
    have hvalue := congrArg (fun w : Word => Nat.ofDigitChars 2 w.toList 0) hsame
    simpa only [Word.value_ofNat, Int.toNat_natCast] using hvalue

/-- A label that is used before it is declared twice, and a label with a number for its name. -/
def numberedProgram : List Statement :=
  [⟨⟨"a.asm", 1, 1⟩, "@END", .addressLoad "END"⟩,
   ⟨⟨"a.asm", 2, 1⟩, "(10)", .label "10"⟩,
   ⟨⟨"a.asm", 3, 1⟩, "@10", .addressLoad "10"⟩,
   ⟨⟨"a.asm", 4, 1⟩, "(END)", .label "END"⟩,
   ⟨⟨"a.asm", 5, 1⟩, "(END)", .label "END"⟩,
   ⟨⟨"a.asm", 6, 1⟩, "0;JMP", .compute ⟨none, "0", some "JMP", 1, 3⟩⟩]

def numberedWords : List Word :=
  ["0000000000000010", "0000000000001010", "1110101010000111"]

theorem label_reference_numberedProgram :
    Statement.ofText "a.asm" "@END\n(10)\n@10\n(END)\n(END)\n0;JMP" = .ok numberedProgram ∧
      ((start .default).generate numberedProgram).2 = .ok numberedWords ∧
      (∃ w, numberedWords[0]? = some w ∧ Word.ofAddress 2 Settings.default.limit = .ok w) ∧
      ∃ w, numberedWords[1]? = some w ∧ Word.ofAddress 10 Settings.default.limit = .ok w := by
  have hparsed : Statement.ofText "a.asm" "@END\n(10)\n@10\n(END)\n(END)\n0;JMP" =
      .ok numberedProgram := by decide +kernel
  have h : ((start .default).generate numberedProgram).2 = .ok numberedWords := by rfl
  have hforward : numberedProgram = [] ++ _ :: numberedProgram.drop 1 := rfl
  have hend : numberedProgram = numberedProgram.take 4 ++ _ :: numberedProgram.drop 5 := rfl
  have hbackward : numberedProgram = numberedProgram.take 2 ++ _ :: numberedProgram.drop 3 := rfl
  have hten : numberedProgram = numberedProgram.take 1 ++ _ :: numberedProgram.drop 2 := rfl
  obtain ⟨-, w, hw, hlabel, -⟩ := label_reference h hforward rfl hend rfl
  obtain ⟨-, v, hv, -, hnumber⟩ := label_reference h hbackward rfl hten rfl
  exact ⟨hparsed, h, ⟨w, hw, hlabel (by decide)⟩, v, hv, (hnumber (by decide)).1⟩

/-- A source that declares the label `1` at the address 0. -/
def digitLabelSource : String := "(1)\n@1"

def digitLabelProgram : List Statement :=
  [⟨⟨"a.asm", 1, 1⟩, "(1)", .label "1"⟩, ⟨⟨"a.asm", 2, 1⟩, "@1", .addressLoad "1"⟩]

/-- The operand is the name of the label, and its word is not that of the label's address. -/
theorem label_unreachable_digitLabelProgram :
    Statement.ofText "a.asm" digitLabelSource = .ok digitLabelProgram ∧
      ((start .default).generate digitLabelProgram).2 = .ok ["0000000000000001"] ∧
      ((start .default).generate digitLabelProgram).1.symbols.lookup "1" = .ok 0 ∧
      Word.ofAddress 0 Settings.default.limit ≠ .ok "0000000000000001" := by
  decide +kernel

end Generator

end HackToolchain
