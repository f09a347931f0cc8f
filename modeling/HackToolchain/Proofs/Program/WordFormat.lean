import HackToolchain.Proofs.Instruction.Coding
import HackToolchain.Proofs.Program.History
import HackToolchain.Proofs.Program.Passes

/-!
# The format of words

An address is written with as many digits as it needs, so a word is longer than 16 digits if its
address is beyond 65535. Addresses are held below a limit, and a literal of any value may be loaded;
so all words of all programs have 16 digits exactly if the limit is no higher than that.

If the limit is 32767, an address leaves the first digit of its word zero, and the word of a compute
instruction begins with three ones. A word then says of which kind its instruction is.
-/

namespace HackToolchain

open Denotation Text

variable {settings : Settings} {program statements : List Statement} {s : Statement}
variable {words : List Word} {w : Word} {n : Nat}

/-! ### Instructions and their words -/

namespace Denotation

/-- The instructions among some statements, in source order. -/
def instructions (statements : List Statement) : List Statement :=
  statements.filter fun s => s.command.isInstruction

theorem isSome_word? : (word? settings program s).isSome = s.command.isInstruction := by
  rw [word?]
  cases s.command <;> rfl

/-- The words of some statements are the words of their instructions, one by one. -/
theorem forall₂_instructions
    (h : statements.filterMap (word? settings program) = words.map Except.ok) :
    List.Forall₂ (fun s w => word? settings program s = some (.ok w)) (instructions statements)
      words := by
  -- A statement has a word exactly if it is an instruction, so both lists lose their heads together.
  induction statements generalizing words with
  | nil =>
    obtain rfl : words = [] := by simpa using h.symm
    exact .nil
  | cons s rest ih =>
    rw [List.filterMap_cons] at h
    have hsome : (word? settings program s).isSome = s.command.isInstruction := isSome_word?
    cases hword : word? settings program s with
    | none =>
      rw [hword] at h hsome
      rw [instructions, List.filter_cons_of_neg (by simp [← hsome])]
      exact ih h
    | some result =>
      rw [hword] at h hsome
      rw [instructions, List.filter_cons_of_pos (by simp [← hsome])]
      cases words with
      | nil => simp at h
      | cons w words =>
        obtain ⟨rfl, hrest⟩ := List.cons.inj h
        exact .cons hword (ih hrest)

end Denotation

/-! ### The digits of a word -/

namespace Word

/-- An address up to 65535 has a word of 16 digits. -/
theorem digits_of_ofAddress {address : Int} {limit : Option Int}
    (h : ofAddress address limit = .ok w) (hlimit : addressLimit limit ≤ 65535) :
    w.toList.length = 16 ∧ IsBinary w.toList := by
  obtain ⟨⟨hnonneg, hle⟩, rfl⟩ := ofAddress_eq_ok_iff.1 h
  exact ⟨length_ofNat_eq_iff.2 (by omega), isBinary_ofNat⟩

/-- An address up to 32767 has a word that begins with a zero. -/
theorem zero_prefix_of_ofAddress {address : Int} {limit : Option Int}
    (h : ofAddress address limit = .ok w) (hlimit : addressLimit limit ≤ 32767) :
    ['0'] <+: w.toList := by
  obtain ⟨⟨hnonneg, hle⟩, rfl⟩ := ofAddress_eq_ok_iff.1 h
  obtain ⟨digits, hdigits, -⟩ := exists_ofNat_eq_cons (n := address.toNat) (by omega)
  rw [hdigits]
  exact List.prefix_append ['0'] digits

end Word

/-- The word of a compute instruction begins with three ones. -/
theorem Fields.ones_prefix_of_encode {fields : Fields} (h : fields.encode = .ok w) :
    ['1', '1', '1'] <+: w.toList := by
  have hhead : w.toList.take 3 = ['1', '1', '1'] := (isWord_of_encode h).2
  rw [← hhead]
  exact List.take_prefix 3 w.toList

/-- No text begins with a zero and with three ones. -/
theorem not_zero_prefix_of_ones {cs : List Char} (h : ['1', '1', '1'] <+: cs) : ¬ ['0'] <+: cs := by
  obtain ⟨behind, rfl⟩ := h
  simp

namespace Denotation

/-- The word of an instruction has 16 digits, if the limit of addresses has. -/
theorem digits_of_word? (h : word? settings program s = some (.ok w))
    (hlimit : Word.addressLimit settings.limit ≤ 65535) :
    w.toList.length = 16 ∧ IsBinary w.toList := by
  rcases word?_eq_some_iff.1 h with ⟨operand, -, haddress⟩ | ⟨fields, -, hencode⟩
  · exact Word.digits_of_ofAddress haddress hlimit
  · exact Disassembly.isWord_iff.1 (Fields.isWord_of_encode hencode).1

/-- The word of an instruction begins with a zero if it loads an address, and with three ones if it
computes, as long as the limit of addresses leaves the first digit free. -/
theorem prefix_of_word? (h : word? settings program s = some (.ok w))
    (hlimit : Word.addressLimit settings.limit ≤ 32767) :
    (['0'] <+: w.toList ↔ ∃ operand, s.command = .addressLoad operand) ∧
      (['1', '1', '1'] <+: w.toList ↔ ∃ fields, s.command = .compute fields) := by
  rcases word?_eq_some_iff.1 h with ⟨operand, hs, haddress⟩ | ⟨fields, hs, hencode⟩
  · have hzero := Word.zero_prefix_of_ofAddress haddress hlimit
    have hones : ¬ ['1', '1', '1'] <+: w.toList := fun hones => not_zero_prefix_of_ones hones hzero
    simp [hs, hzero, hones]
  · have hones := Fields.ones_prefix_of_encode hencode
    simp [hs, hones, not_zero_prefix_of_ones hones]

end Denotation

/-! ### Literals -/

/-- A literal up to the limit is encoded as its value, in any state. -/
theorem Bindings.encode_literal {b : Bindings} (hs : s.command = .addressLoad (toString n))
    (hdigits : n < 10 ^ Numeral.digitLimit) (hlimit : (n : Int) ≤ Word.addressLimit settings.limit) :
    b.encode settings s = (b, .ok (some (Word.ofNat n))) := by
  have hword : Word.ofAddress (n : Int) settings.limit = .ok (Word.ofNat n) :=
    Word.ofAddress_eq_ok_iff.2 ⟨⟨Int.natCast_nonneg n, hlimit⟩, rfl⟩
  simp only [encode, hs, resolve_of_isLiteral Numeral.isLiteral_toString,
    Numeral.readLiteral_toString hdigits, hword, encoded]

/-- A program of one literal up to the limit is assembled. -/
theorem generate_literal (hs : s.command = .addressLoad (toString n))
    (hdigits : n < 10 ^ Numeral.digitLimit) (hlimit : (n : Int) ≤ Word.addressLimit settings.limit) :
    (generate settings [s]).result = .ok [Word.ofNat n] := by
  have hlabels : bindLabels .initial 0 [s] = ⟨.initial, 1, none⟩ := by
    simp only [bindLabels, hs]
  simp [generate, hlabels, emit, Bindings.encode_literal hs hdigits hlimit, Run.result,
    Program.words]

/-- A limit beyond 65535 lets the first number through that has 17 digits. -/
theorem exists_long_word (hlimit : 65535 < Word.addressLimit settings.limit) :
    ∃ statements w, (generate settings statements).result = .ok [w] ∧ w.toList.length ≠ 16 := by
  let load : Statement := ⟨⟨"a.asm", 1, 1⟩, "@65536", .addressLoad (toString 65536)⟩
  have hdigits : 65536 < 10 ^ Numeral.digitLimit :=
    Nat.lt_of_lt_of_le (m := 10 ^ 5) (by decide) (Nat.pow_le_pow_right (by decide) (by decide))
  refine ⟨[load], Word.ofNat 65536, generate_literal rfl hdigits (by omega), ?_⟩
  rw [ne_eq, Word.length_ofNat_eq_iff]
  decide

/-! ### Runs -/

/-- All words of a run have 16 digits, if the limit of addresses has. -/
theorem digits_of_result (h : (generate settings statements).result = .ok words)
    (hlimit : Word.addressLimit settings.limit ≤ 65535) (hw : w ∈ words) :
    w.toList.length = 16 ∧ IsBinary w.toList := by
  have hmem : Except.ok w ∈ statements.filterMap (word? settings statements) := by
    rw [(generate_of_result h).2]
    exact List.mem_map_of_mem hw
  obtain ⟨s, -, hs⟩ := List.mem_filterMap.1 hmem
  exact digits_of_word? hs hlimit

/-- Each instruction has a word of its own, which begins with a zero if it loads an address, and with
three ones if it computes. -/
theorem prefixes_of_result (h : (generate settings statements).result = .ok words)
    (hlimit : Word.addressLimit settings.limit ≤ 32767) :
    words.length = (instructions statements).length ∧
      ∀ s w, (s, w) ∈ (instructions statements).zip words →
        (['0'] <+: w.toList ↔ ∃ operand, s.command = .addressLoad operand) ∧
          (['1', '1', '1'] <+: w.toList ↔ ∃ fields, s.command = .compute fields) := by
  obtain ⟨hlength, hwords⟩ :=
    List.forall₂_iff_zip.1 (forall₂_instructions (generate_of_result h).2)
  exact ⟨hlength.symm, fun s w hzip => prefix_of_word? (hwords hzip) hlimit⟩

namespace Generator

/-- The words of all programs that a generator encodes have 16 binary digits exactly if addresses
are held below 65536. If they are held below 32768, the `k`-th word of a program begins with a zero
exactly if the `k`-th instruction loads an address, and with three ones exactly if it computes; so
instructions with the same word are of the same kind, also in different programs. -/
theorem words_format (g : Generator) :
    ((∀ statements words, (g.generate statements).2 = .ok words →
        ∀ w ∈ words, w.toList.length = 16 ∧ IsBinary w.toList) ↔
      Word.addressLimit g.settings.limit ≤ 65535) ∧
    (Word.addressLimit g.settings.limit ≤ 32767 →
      (∀ statements words, (g.generate statements).2 = .ok words →
        words.length = (instructions statements).length ∧
          ∀ s w, (s, w) ∈ (instructions statements).zip words →
            (['0'] <+: w.toList ↔ ∃ operand, s.command = .addressLoad operand) ∧
              (['1', '1', '1'] <+: w.toList ↔ ∃ fields, s.command = .compute fields)) ∧
      ∀ statements words others more, (g.generate statements).2 = .ok words →
        (g.generate others).2 = .ok more →
        ∀ s t w, (s, w) ∈ (instructions statements).zip words →
          (t, w) ∈ (instructions others).zip more →
          ((∃ operand, s.command = .addressLoad operand) ↔
            ∃ operand, t.command = .addressLoad operand)) := by
  simp only [result_generate]
  refine ⟨⟨?_, ?_⟩, fun hlimit => ⟨?_, ?_⟩⟩
  · intro hall
    by_contra hbeyond
    obtain ⟨statements, w, hrun, hlong⟩ := exists_long_word (Int.not_le.1 hbeyond)
    exact hlong (hall _ _ hrun w (List.mem_singleton_self w)).1
  · intro hlimit statements words h w hw
    exact digits_of_result h hlimit hw
  · intro statements words h
    exact prefixes_of_result h hlimit
  · intro statements words others more h hothers s t w hs ht
    have hfirst := ((prefixes_of_result h hlimit).2 s w hs).1
    have hsecond := ((prefixes_of_result hothers hlimit).2 t w ht).1
    exact hfirst.symm.trans hsecond

theorem words_format_namespaceProgram :
    Word.addressLimit Settings.default.limit ≤ 32767 ∧
      ((start .default).generate namespaceProgram).2 = .ok namespaceWords ∧
      (∀ w ∈ namespaceWords, w.toList.length = 16 ∧ IsBinary w.toList) ∧
      ∀ s w, (s, w) ∈ (instructions namespaceProgram).zip namespaceWords →
        (['0'] <+: w.toList ↔ ∃ operand, s.command = .addressLoad operand) ∧
          (['1', '1', '1'] <+: w.toList ↔ ∃ fields, s.command = .compute fields) := by
  have hlimit : Word.addressLimit Settings.default.limit ≤ 32767 := by decide
  have h : ((start .default).generate namespaceProgram).2 = .ok namespaceWords := by rfl
  obtain ⟨hdigits, hkinds⟩ := words_format (start .default)
  have hall := hdigits.2 (Int.le_trans hlimit (by decide))
  exact ⟨hlimit, h, hall _ _ h, ((hkinds hlimit).1 _ _ h).2⟩

end Generator

end HackToolchain
