import HackToolchain.Assembler
import HackToolchain.Proofs.Disassembly.Canonical
import HackToolchain.Proofs.Program.Passes
import HackToolchain.Proofs.Source.Shape

/-!
# Assembling what was disassembled

A canonical text is read as a statement that is encoded as the word, whatever is bound. So a program
of canonical texts declares no label and uses no variable, and assembling it returns the words from
which the texts were made.
-/

namespace HackToolchain

open Text

variable {fields : Fields} {w : Word} {t file line : String} {n number count address : Nat}
variable {settings : Settings} {s : Statement} {statements : List Statement}
variable {words : List Word} {ls : List String}

/-! ### Reading the text of some fields -/

namespace Fields

theorem wellFormed_of_encode (h : fields.encode = .ok w) : fields.WellFormed := by
  have hpart (cs : List Char) (hcs : IsSpelling cs) : Source.IsPart cs :=
    ⟨hcs.1, fun c hc => (hcs.2 c hc).1.2⟩
  obtain ⟨hcomp, hdest, hjump⟩ := isSpelling_of_encode h
  exact ⟨hpart _ hcomp, fun dest hd => hpart _ (hdest dest hd),
    fun jump hj => hpart _ (hjump jump hj)⟩

theorem isSolid_text (h : fields.encode = .ok w) : IsSolid fields.text.toList := by
  have hsolid (cs : List Char) (hcs : IsSpelling cs) : IsSolid cs :=
    fun c hc => (hcs.2 c hc).1.1
  obtain ⟨hcomp, hdest, hjump⟩ := isSpelling_of_encode h
  rw [toList_text, isSolid_append, isSolid_append]
  refine ⟨⟨?_, hsolid _ hcomp⟩, ?_⟩
  · cases hd : fields.dest with
    | none => exact isSolid_nil
    | some dest =>
      exact isSolid_append.2 ⟨hsolid _ (hdest dest hd), isSolid_cons.2 ⟨rfl, isSolid_nil⟩⟩
  · cases hj : fields.jump with
    | none => exact isSolid_nil
    | some jump => exact isSolid_cons.2 ⟨rfl, hsolid _ (hjump jump hj)⟩

/-- The text begins with a character of a mnemonic. -/
theorem exists_text_eq_cons (h : fields.encode = .ok w) : ∃ c cs,
    fields.text.toList = c :: cs ∧ c ≠ '/' ∧ c ≠ '@' ∧ c ≠ '(' := by
  have hcons (cs rest : List Char) (hcs : IsSpelling cs) :
      ∃ c behind, cs ++ rest = c :: behind ∧ c ≠ '/' ∧ c ≠ '@' ∧ c ≠ '(' := by
    obtain ⟨c, behind, rfl⟩ := List.exists_cons_of_ne_nil hcs.1
    exact ⟨c, behind ++ rest, rfl, (hcs.2 c List.mem_cons_self).2⟩
  obtain ⟨hcomp, hdest, -⟩ := isSpelling_of_encode h
  rw [toList_text]
  cases hd : fields.dest with
  | none =>
    rw [List.nil_append]
    exact hcons _ _ hcomp
  | some dest =>
    simp only [List.append_assoc]
    exact hcons _ _ (hdest dest hd)

theorem toList_text_ne_nil (h : fields.encode = .ok w) : fields.text.toList ≠ [] := by
  obtain ⟨c, cs, htext, -⟩ := exists_text_eq_cons h
  rw [htext]
  exact List.cons_ne_nil c cs

end Fields

theorem Text.isSolid_toString : IsSolid (toString n).toList := by
  rw [toList_toString]
  exact fun c hc => isBlank_of_isAsciiDigit (isAsciiDigit_of_mem_toDigits hc)

namespace Statement

theorem commandOf_address :
    commandOf ("@" ++ toString n) = .ok (some (.addressLoad (toString n))) := by
  apply commandOf_addressLoad isSolid_toString
  rw [toList_toString]
  exact Nat.toDigits_ne_nil

/-- A line that is the text of some fields up to its first blank. -/
theorem commandOf_compute (h : fields.encode = .ok w)
    (hline : untilBlank line.toList = fields.text.toList) :
    commandOf line = .ok (some (.compute fields.placed)) := by
  obtain ⟨c, cs, htext, hstart⟩ := Fields.exists_text_eq_cons h
  have hcons : line.toList = c :: (cs ++ line.toList.dropWhile fun c => !isBlank c) := by
    rw [← List.cons_append, ← htext, ← hline, untilBlank_append_dropWhile]
  apply commandOf_fields (Fields.wellFormed_of_encode h) hline
  rw [hcons]
  rintro d ⟨⟩
  exact hstart

/-! ### Statements whose word depends on no symbol -/

/-- An instruction that is encoded as the same word whatever is bound. -/
structure IsFixed (settings : Settings) (s : Statement) (w : Word) : Prop where
  isInstruction : s.command.isInstruction = true
  encode_eq (b : Bindings) : b.encode settings s = (b, .ok (some w))

theorem isFixed_addressLoad (h : n ≤ 32767) (hs : s.command = .addressLoad (toString n)) :
    s.IsFixed .default (Word.ofNat n) where
  isInstruction := by
    rw [hs]
    rfl
  encode_eq b := by
    simp only [Bindings.encode, hs]
    rw [Bindings.resolve_of_isLiteral Numeral.isLiteral_toString,
      Numeral.readLiteral_toString (Numeral.lt_pow_digitLimit h)]
    simp only [Word.ofAddress_default h]
    rfl

theorem isFixed_compute (settings : Settings) (h : fields.encode = .ok w)
    (hs : s.command = .compute fields.placed) :
    s.IsFixed settings w where
  isInstruction := by
    rw [hs]
    rfl
  encode_eq b := by
    have hplaced : fields.placed.encode = .ok w := h
    simp only [Bindings.encode, hs, hplaced]
    rfl

/-- A line without outer blanks that is the text of some fields up to its first blank. -/
theorem exists_ofLine_compute (settings : Settings) (h : fields.encode = .ok w)
    (htrim : trim line = line) (hline : untilBlank line.toList = fields.text.toList)
    (file : String) (number : Nat) :
    ∃ s, ofLine file number line = .ok (some s) ∧ s.IsFixed settings w := by
  refine ⟨⟨⟨file, number, 1⟩, line, .compute fields.placed⟩, ?_, isFixed_compute settings h rfl⟩
  rw [ofLine, htrim, commandOf_compute h hline]
  rfl

end Statement

namespace Disassembly

theorem Canonical.isSolid (h : Canonical w t) : IsSolid t.toList := by
  cases h with
  | address n small =>
    rw [String.toList_append, isSolid_append]
    exact ⟨isSolid_cons.2 ⟨rfl, isSolid_nil⟩, isSolid_toString⟩
  | compute fields w encoded =>
    rw [← Fields.encode_bare] at encoded
    exact Fields.isSolid_text encoded

theorem forall_isSolid_of_canonical (h : List.Forall₂ Canonical words ls) :
    ∀ l ∈ ls, IsSolid l.toList :=
  forall_mem_of_forall₂ h fun _ _ hcanonical => hcanonical.isSolid

/-- A canonical text is read as a statement that is fixed to its word. -/
theorem Canonical.ofLine (h : Canonical w t) (file : String) (number : Nat) :
    ∃ s, Statement.ofLine file number t = .ok (some s) ∧ s.IsFixed .default w := by
  have htrim := trim_of_isSolid h.isSolid
  cases h with
  | address n small =>
    refine ⟨⟨⟨file, number, 1⟩, "@" ++ toString n, .addressLoad (toString n)⟩, ?_,
      Statement.isFixed_addressLoad small rfl⟩
    rw [Statement.ofLine, htrim, Statement.commandOf_address]
    rfl
  | compute fields w encoded =>
    rw [← Fields.encode_bare] at encoded
    have hline := untilBlank_of_isSolid (Fields.isSolid_text encoded)
    exact Statement.exists_ofLine_compute .default encoded htrim hline file number

theorem exists_ofLinesFrom (h : List.Forall₂ Canonical words ls) (file : String) (number : Nat) :
    ∃ statements, Statement.ofLinesFrom file number ls = .ok statements ∧
      List.Forall₂ (Statement.IsFixed .default) statements words := by
  -- Every line holds a statement, so no line is skipped.
  induction h generalizing number with
  | nil => exact ⟨[], rfl, .nil⟩
  | cons hcanonical _ ih =>
    obtain ⟨s, hs, hfixed⟩ := hcanonical.ofLine file number
    obtain ⟨statements, hstatements, hall⟩ := ih (number + 1)
    refine ⟨s :: statements, ?_, .cons hfixed hall⟩
    rw [Statement.ofLinesFrom, hs, hstatements]
    rfl

end Disassembly

/-! ### Programs of such statements -/

theorem bindLabels_of_isFixed {symbols : SymbolTable}
    (h : List.Forall₂ (Statement.IsFixed settings) statements words) :
    (bindLabels symbols count statements).fault = none := by
  induction h generalizing count with
  | nil => rfl
  | @cons s w statements words hfixed _ ih =>
    have hlabel : s.command.labelName? = none := by
      have hinstruction := hfixed.isInstruction
      cases hs : s.command <;> simp_all [Command.isInstruction, Command.labelName?]
    rw [bindLabels_cons_of_labelName? hlabel]
    exact ih

theorem emit_of_isFixed (b : Bindings) (address : Nat)
    (h : List.Forall₂ (Statement.IsFixed settings) statements words) :
    (emit settings b address statements).fault = none ∧
      (emit settings b address statements).listing.filterMap (·.word) = words := by
  induction h generalizing address with
  | nil => exact ⟨rfl, rfl⟩
  | cons hfixed _ ih =>
    rw [emit, hfixed.encode_eq]
    obtain ⟨hfault, hwords⟩ := ih (address + 1)
    refine ⟨hfault, ?_⟩
    rw [List.filterMap_cons]
    exact congrArg _ hwords

/-- A program of statements whose words depend on no symbol is assembled to these words. -/
theorem generate_of_isFixed (h : List.Forall₂ (Statement.IsFixed settings) statements words) :
    (generate settings statements).result = .ok words := by
  have hlabels : (bindLabels .initial 0 statements).fault = none := bindLabels_of_isFixed h
  let b : Bindings := ⟨(bindLabels .initial 0 statements).symbols,
    .ofBase settings.variableBase Machine.reserved⟩
  obtain ⟨hfault, hwords⟩ := emit_of_isFixed b 0 h
  rw [generate, hlabels]
  simp only [Run.result, b] at hfault hwords ⊢
  rw [hfault]
  exact congrArg Except.ok hwords

/-- A text is assembled if its lines hold statements from which code is generated. -/
theorem assemble_eq_ok_iff {text : String} : assemble file text = .ok words ↔
    ∃ statements, Statement.ofText file text = .ok statements ∧
      (generate .default statements).result = .ok words := by
  have hresult : assemble file text =
      (Attempt.ofSource .default file ⟨lines text, none⟩).result := rfl
  rw [hresult, Attempt.ofSource, Statement.ofText]
  cases Statement.ofLines file (lines text) with
  | error d => simp [Attempt.result]
  | ok statements =>
    cases hrun : (generate .default statements).result with
    | error i => simp [Attempt.result, Except.mapError, hrun]
    | ok words => simp [Attempt.result, Except.mapError, hrun]

namespace Disassembly

/-- Assembling canonical texts returns the words from which they were made. -/
theorem assemble_of_canonical (h : List.Forall₂ Canonical words ls) (file : String) :
    assemble file (joinLines ls ++ "\n") = .ok words := by
  obtain ⟨statements, hstatements, hfixed⟩ := exists_ofLinesFrom h file 1
  refine assemble_eq_ok_iff.2 ?_
  rw [Statement.ofText, lines_joinLines (forall_isSolid_of_canonical h)]
  split
  · -- Without any word the text is one empty line, which holds no statement.
    next hnil =>
    obtain rfl := hnil
    obtain rfl := List.forall₂_nil_right_iff.1 h
    exact ⟨[], rfl, rfl⟩
  · exact ⟨statements, hstatements, generate_of_isFixed hfixed⟩

/-- Disassembly succeeds exactly on the words that the assembler emits, where blanks around a word
and texts of blanks only do not matter; and the result is assembled to the same words again. -/
theorem sourceText_assemble (texts : List String) :
    ((∃ source, sourceText [] texts = .ok source) ↔
      ∀ text ∈ texts, isAllBlank text = false → Word.IsEmitted (trim text)) ∧
    ∀ source, sourceText [] texts = .ok source →
      ∀ file, assemble file source =
        .ok ((texts.filter fun text => !isAllBlank text).map trim) := by
  refine ⟨exists_sourceText_iff, fun source h file => ?_⟩
  obtain ⟨ls, hcanonical, rfl⟩ := sourceText_eq_ok_iff.1 h
  exact assemble_of_canonical hcanonical file

end Disassembly

end HackToolchain
