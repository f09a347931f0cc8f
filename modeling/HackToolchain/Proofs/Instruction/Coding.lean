import HackToolchain.Disassembly
import HackToolchain.Proofs.Text.Digits
import HackToolchain.Source.Line

/-!
# Encoding and decoding of words

In each table of mnemonics the bits determine the mnemonic, and all bits have the width of the field.
So a compute word is cut into its fields again, and decoding undoes encoding in both directions; only
a `null` that was written out comes back as a field that is left out. A word that loads an address is
determined by the address, and the address by the word.
-/

namespace HackToolchain

variable {f : Field} {fields : Fields} {mnemonic bits : String} {w : Word} {n : Nat}

open Text

/-! ### The tables -/

/-- The number of bits of a field. -/
def Field.width : Field → Nat
  | dest => 3
  | comp => 7
  | jump => 3

instance {cs : List Char} : Decidable (IsBinary cs) :=
  List.decidableBAll (fun c => c = '0' ∨ c = '1') cs

/-- A text that can be told from what surrounds it in a source line, and that does not make the line
another than a compute line. -/
def IsSpelling (cs : List Char) : Prop :=
  cs ≠ [] ∧ ∀ c ∈ cs,
    (isBlank c = false ∧ Source.isSeparator c = false) ∧ c ≠ '/' ∧ c ≠ '@' ∧ c ≠ '('

instance {cs : List Char} : Decidable (IsSpelling cs) :=
  @instDecidableAnd _ _ inferInstance (List.decidableBAll _ cs)

namespace Field

/-- What every entry of every table fulfils: it is found by its mnemonic and by its bits, the bits
are as many as the field has, and the mnemonic can be written in a source line. -/
theorem entry_of_mem (h : (mnemonic, bits) ∈ f.table) :
    (f.table.code? mnemonic = some bits ∧ f.table.mnemonic? bits = some mnemonic) ∧
      (bits.toList.length = f.width ∧ IsBinary bits.toList) ∧ IsSpelling mnemonic.toList := by
  have hall : ∀ entry ∈ f.table,
      (f.table.code? entry.1 = some entry.2 ∧ f.table.mnemonic? entry.2 = some entry.1) ∧
        (entry.2.toList.length = f.width ∧ IsBinary entry.2.toList) ∧
        IsSpelling entry.1.toList := by
    -- The three tables are closed, so this is computed.
    cases f <;> decide
  exact hall _ h

theorem mem_table_of_code? (h : f.table.code? mnemonic = some bits) :
    (mnemonic, bits) ∈ f.table := by
  obtain ⟨before, behind, htable, -⟩ := List.lookup_eq_some_iff.1 h
  rw [htable]
  simp

theorem mem_table_of_mnemonic? (h : f.table.mnemonic? bits = some mnemonic) :
    (mnemonic, bits) ∈ f.table := by
  obtain ⟨before, behind, htable, -⟩ := List.lookup_eq_some_iff.1 h
  have hmem : (bits, mnemonic) ∈ f.table.decoding := by
    rw [htable]
    simp
  obtain ⟨entry, hentry, hswap⟩ := List.mem_map.1 hmem
  rwa [← Prod.swap_swap entry, hswap] at hentry

/-- The tables are read in both directions. -/
theorem mnemonic?_eq_some_iff :
    f.table.mnemonic? bits = some mnemonic ↔ f.table.code? mnemonic = some bits :=
  ⟨fun h => (entry_of_mem (mem_table_of_mnemonic? h)).1.1,
    fun h => (entry_of_mem (mem_table_of_code? h)).1.2⟩

theorem length_of_code? (h : f.table.code? mnemonic = some bits) :
    bits.toList.length = f.width :=
  (entry_of_mem (mem_table_of_code? h)).2.1.1

theorem isBinary_of_code? (h : f.table.code? mnemonic = some bits) : IsBinary bits.toList :=
  (entry_of_mem (mem_table_of_code? h)).2.1.2

theorem isSpelling_of_code? (h : f.table.code? mnemonic = some bits) :
    IsSpelling mnemonic.toList :=
  (entry_of_mem (mem_table_of_code? h)).2.2

theorem encode_eq_ok_iff : f.encode mnemonic = .ok bits ↔ f.table.code? mnemonic = some bits := by
  rw [encode]
  cases f.table.code? mnemonic <;> simp

end Field

theorem Disassembly.isWord_iff :
    isWord w = true ↔ w.toList.length = 16 ∧ IsBinary w.toList := by
  simp [isWord, Machine.wordLength, IsBinary]

/-! ### Compute words -/

namespace Fields

/-- The fields as decoding returns them: a `null` is left out, and no columns are known. -/
def bare (f : Fields) : Fields :=
  ⟨optional (f.dest.getD nullMnemonic), f.comp, optional (f.jump.getD nullMnemonic), 1, 0⟩

theorem getD_optional (mnemonic : String) :
    (optional mnemonic).getD nullMnemonic = mnemonic := by
  rw [optional]
  split
  · next h => exact h.symm
  · rfl

theorem encode_eq_ok_iff : fields.encode = .ok w ↔ ∃ comp dest jump,
    (Field.comp.table.code? fields.comp = some comp ∧
      Field.dest.table.code? (fields.dest.getD nullMnemonic) = some dest ∧
      Field.jump.table.code? (fields.jump.getD nullMnemonic) = some jump) ∧
      w = computeHead ++ comp ++ dest ++ jump := by
  simp only [← Field.encode_eq_ok_iff, encode]
  cases Field.comp.encode fields.comp with
  | error cause => simp [bind, Except.bind]
  | ok comp =>
    cases Field.dest.encode (fields.dest.getD nullMnemonic) with
    | error cause => simp [bind, Except.bind]
    | ok dest =>
      cases Field.jump.encode (fields.jump.getD nullMnemonic) with
      | error cause => simp [bind, Except.bind]
      | ok jump => simp [bind, Except.bind, pure, Except.pure, eq_comm]

theorem encode_bare : fields.bare.encode = fields.encode := by
  rw [encode, encode, bare, getD_optional, getD_optional]

/-- All mnemonics of fields that are encoded can be written in a source line. -/
theorem isSpelling_of_encode (h : fields.encode = .ok w) :
    IsSpelling fields.comp.toList ∧ (∀ dest ∈ fields.dest, IsSpelling dest.toList) ∧
      ∀ jump ∈ fields.jump, IsSpelling jump.toList := by
  obtain ⟨comp, dest, jump, ⟨hcomp, hdest, hjump⟩, -⟩ := encode_eq_ok_iff.1 h
  refine ⟨Field.isSpelling_of_code? hcomp, fun d hd => ?_, fun j hj => ?_⟩
  · rw [Option.mem_def.1 hd, Option.getD_some] at hdest
    exact Field.isSpelling_of_code? hdest
  · rw [Option.mem_def.1 hj, Option.getD_some] at hjump
    exact Field.isSpelling_of_code? hjump

/-- A compute word falls into its head and the bits of its fields, whose lengths are fixed. -/
theorem exists_bits_of_encode (h : fields.encode = .ok w) : ∃ comp dest jump : String,
    (Field.comp.table.code? fields.comp = some comp ∧
      Field.dest.table.code? (fields.dest.getD nullMnemonic) = some dest ∧
      Field.jump.table.code? (fields.jump.getD nullMnemonic) = some jump) ∧
    (comp.toList.length = 7 ∧ dest.toList.length = 3 ∧ jump.toList.length = 3) ∧
    w.toList = computeHead.toList ++ comp.toList ++ dest.toList ++ jump.toList := by
  obtain ⟨comp, dest, jump, hcodes, rfl⟩ := encode_eq_ok_iff.1 h
  refine ⟨comp, dest, jump, hcodes, ⟨?_, ?_, ?_⟩, ?_⟩
  · exact Field.length_of_code? hcodes.1
  · exact Field.length_of_code? hcodes.2.1
  · exact Field.length_of_code? hcodes.2.2
  · simp only [String.toList_append]

theorem isWord_of_encode (h : fields.encode = .ok w) :
    Disassembly.isWord w = true ∧ w.toList.take 3 = computeHead.toList := by
  obtain ⟨comp, dest, jump, ⟨hcomp, hdest, hjump⟩, ⟨hlcomp, hldest, hljump⟩, hw⟩ :=
    exists_bits_of_encode h
  have hhead : computeHead.toList.length = 3 ∧ IsBinary computeHead.toList := by decide
  rw [Disassembly.isWord_iff, hw]
  simp only [List.length_append, isBinary_append, hhead, hlcomp, hldest, hljump]
  refine ⟨⟨trivial, ⟨⟨trivial, ?_⟩, ?_⟩, ?_⟩, ?_⟩
  · exact Field.isBinary_of_code? hcomp
  · exact Field.isBinary_of_code? hdest
  · exact Field.isBinary_of_code? hjump
  · rw [List.append_assoc, List.append_assoc, List.take_left' hhead.1]

/-- A compute word begins with a one. -/
theorem head?_of_encode (h : fields.encode = .ok w) : w.toList.head? = some '1' := by
  have hhead : (w.toList.take 3).head? = computeHead.toList.head? := by
    rw [(isWord_of_encode h).2]
  rwa [List.head?_take, if_neg (by decide)] at hhead

/-- A part of a list that is joined from three is cut out by its place. -/
theorem slice_append (xs ys zs : List Char) :
    slice (xs ++ ys ++ zs) xs.length (xs.length + ys.length) = String.ofList ys := by
  rw [slice, ← List.length_append, List.take_left', List.drop_left']
  · rfl
  · rfl

/-- Two adjacent parts of a list are one part. -/
theorem toList_slice_append {cs : List Char} {i j k : Nat} (hij : i ≤ j) (hjk : j ≤ k)
    (hj : j ≤ cs.length) :
    (slice cs i j).toList ++ (slice cs j k).toList = (slice cs i k).toList := by
  have hsplit : cs.take k = cs.take j ++ (cs.take k).drop j := by
    have h := (List.take_append_drop j (cs.take k)).symm
    rwa [List.take_take, Nat.min_eq_left hjk] at h
  simp only [slice, String.toList_ofList]
  conv_rhs => rw [hsplit]
  rw [List.drop_append_of_le_length]
  rw [List.length_take]
  omega

/-- Decoding undoes encoding, except that a `null` is not written out. -/
theorem decode_of_encode (h : fields.encode = .ok w) : decode w = .ok fields.bare := by
  obtain ⟨hword, hstart⟩ := isWord_of_encode h
  obtain ⟨comp, dest, jump, ⟨hcomp, hdest, hjump⟩, ⟨hlcomp, hldest, hljump⟩, hw⟩ :=
    exists_bits_of_encode h
  have hhead : computeHead.toList.length = 3 := rfl
  -- Each slice has the bits of its field before and behind it.
  have hslices : slice w.toList 3 10 = comp ∧ slice w.toList 10 13 = dest ∧
      slice w.toList 13 16 = jump := by
    rw [hw]
    refine ⟨?_, ?_, ?_⟩
    · have hcut := slice_append computeHead.toList comp.toList (dest.toList ++ jump.toList)
      simpa [hhead, hlcomp, List.append_assoc] using hcut
    · have hcut := slice_append (computeHead.toList ++ comp.toList) dest.toList jump.toList
      simpa [hhead, hlcomp, hldest] using hcut
    · have hcut := slice_append (computeHead.toList ++ comp.toList ++ dest.toList) jump.toList []
      simpa [hhead, hlcomp, hldest, hljump] using hcut
  have hlength := (Disassembly.isWord_iff.1 hword).1
  rw [decode, if_neg (by simp only [hstart, hlength, Machine.wordLength]; simp)]
  simp only [hslices, Field.mnemonic?_eq_some_iff.2 hcomp, Field.mnemonic?_eq_some_iff.2 hdest,
    Field.mnemonic?_eq_some_iff.2 hjump]
  rfl

/-- Encoding undoes decoding. -/
theorem encode_of_decode (h : decode w = .ok fields) :
    fields.encode = .ok w ∧ fields.bare = fields := by
  rw [decode] at h
  split at h
  · exact absurd h (by simp)
  · next hshape =>
    obtain ⟨hlength, hhead⟩ : w.toList.length = 16 ∧ w.toList.take 3 = computeHead.toList := by
      simpa only [not_or, not_not, Machine.wordLength] using hshape
    split at h
    · next comp dest jump hcomp hdest hjump =>
      obtain rfl := Except.ok.inj h
      refine ⟨encode_eq_ok_iff.2 ⟨slice w.toList 3 10, slice w.toList 10 13, slice w.toList 13 16,
        ⟨Field.mnemonic?_eq_some_iff.1 hcomp, ?_, ?_⟩, ?_⟩, ?_⟩
      · simpa only [getD_optional] using Field.mnemonic?_eq_some_iff.1 hdest
      · simpa only [getD_optional] using Field.mnemonic?_eq_some_iff.1 hjump
      · apply String.toList_injective
        -- The head and the slices are adjacent, and together they are the word.
        have hstart : computeHead.toList = (slice w.toList 0 3).toList := by
          simp [slice, hhead]
        simp only [String.toList_append]
        rw [hstart, toList_slice_append (by decide) (by decide) (by omega),
          toList_slice_append (by decide) (by decide) (by omega),
          toList_slice_append (by decide) (by decide) (by omega)]
        simp [slice, ← hlength]
      · simp only [bare, getD_optional]
    · exact absurd h (by simp)

end Fields

/-! ### Words that load an address -/

namespace Word

theorem ofAddress_eq_ok_iff {address : Int} {limit : Option Int} :
    ofAddress address limit = .ok w ↔
      (0 ≤ address ∧ address ≤ addressLimit limit) ∧ w = ofNat address.toNat := by
  rw [ofAddress]
  split
  · next h => simp [h, eq_comm]
  · next h => simp [h]

theorem toList_ofNat : (ofNat n).toList = (Nat.toDigits 2 n).leftpad Machine.wordLength '0' := by
  rw [ofNat, String.toList_ofList]

theorem isBinary_ofNat : IsBinary (ofNat n).toList := by
  rw [toList_ofNat, List.leftpad, isBinary_append]
  exact ⟨fun c hc => .inl (List.eq_of_mem_replicate hc), isBinary_toDigits n⟩

/-- The value of the word of an address is the address. -/
theorem value_ofNat : Nat.ofDigitChars 2 (ofNat n).toList 0 = n := by
  rw [toList_ofNat, List.leftpad, Nat.ofDigitChars_append, Nat.ofDigitChars_replicate_zero,
    Nat.mul_zero, Nat.ofDigitChars_toDigits (by decide) (by decide)]

/-- The word of an address has as many digits as a word has, or as many as the address needs. -/
theorem length_ofNat :
    (ofNat n).toList.length = max Machine.wordLength (Nat.toDigits 2 n).length := by
  rw [toList_ofNat, List.length_leftpad]

theorem length_ofNat_eq_iff : (ofNat n).toList.length = 16 ↔ n ≤ 65535 := by
  have hdigits : (Nat.toDigits 2 n).length ≤ 16 ↔ n < 2 ^ 16 :=
    Nat.length_toDigits_le_iff (by decide) (by decide)
  rw [length_ofNat, Machine.wordLength]
  omega

/-- An address of 15 bits leaves the first digit of its word zero. -/
theorem exists_ofNat_eq_cons (h : n ≤ 32767) : ∃ digits,
    (ofNat n).toList = '0' :: digits ∧ digits.length = 15 := by
  have hlength : (Nat.toDigits 2 n).length ≤ 15 :=
    (Nat.length_toDigits_le_iff (by decide) (by decide)).2 (by omega)
  refine ⟨List.replicate (15 - (Nat.toDigits 2 n).length) '0' ++ Nat.toDigits 2 n, ?_, ?_⟩
  · rw [toList_ofNat, List.leftpad, Machine.wordLength, ← List.cons_append,
      ← List.replicate_succ]
    congr 2
    omega
  · rw [List.length_append, List.length_replicate]
    omega

theorem isWord_ofNat (h : n ≤ 32767) : Disassembly.isWord (ofNat n) = true := by
  obtain ⟨digits, hdigits, hlength⟩ := exists_ofNat_eq_cons h
  refine Disassembly.isWord_iff.2 ⟨?_, isBinary_ofNat⟩
  rw [hdigits, List.length_cons, hlength]

/-- A word with a leading zero is the word of its value, which has 15 bits. -/
theorem ofNat_value (hword : Disassembly.isWord w = true) (hhead : w.toList.head? = some '0') :
    Nat.ofDigitChars 2 w.toList 0 ≤ 32767 ∧ ofNat (Nat.ofDigitChars 2 w.toList 0) = w := by
  obtain ⟨hlength, hbinary⟩ := Disassembly.isWord_iff.1 hword
  obtain ⟨digits, hdigits⟩ := List.head?_eq_some_iff.1 hhead
  have hsmall : Nat.ofDigitChars 2 w.toList 0 ≤ 32767 := by
    rw [hdigits, List.length_cons] at hlength
    have hdigitsBinary : IsBinary digits := fun c hc =>
      hbinary c (hdigits ▸ List.mem_cons_of_mem _ hc)
    have hlt := ofDigitChars_lt_two_pow hdigitsBinary
    rw [show digits.length = 15 by omega] at hlt
    rw [hdigits, Nat.ofDigitChars_cons]
    simp only [Char.reduceToNat, Nat.mul_zero, Nat.sub_self, Nat.add_zero]
    omega
  refine ⟨hsmall, String.toList_injective ?_⟩
  -- Both are 16 digits of the same value.
  refine eq_of_ofDigitChars_eq isBinary_ofNat hbinary ?_ value_ofNat
  rw [(Disassembly.isWord_iff.1 (isWord_ofNat hsmall)).1, hlength]

end Word

end HackToolchain
