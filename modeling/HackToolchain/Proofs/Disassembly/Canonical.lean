import HackToolchain.Proofs.Instruction.Coding
import HackToolchain.Proofs.Text.Layout
import HackToolchain.Settings
import Mathlib.Data.List.Forall2

/-!
# Canonical texts

Every word that the assembler emits has one canonical text: an at sign and a decimal address, or the
written form of its fields without any `null`. Without a map of symbols, disassembly succeeds
exactly on the words that have a canonical text, and prints these texts below each other.
-/

namespace HackToolchain

open Text

/-- A word that the assembler emits under the default settings. -/
def Word.IsEmitted (w : Word) : Prop :=
  (∃ address : Int, (0 ≤ address ∧ address ≤ Machine.addressMax) ∧
    ofAddress address Settings.default.limit = .ok w) ∨
      ∃ fields : Fields, fields.encode = .ok w

/-- An address of 15 bits has a word under the default settings. -/
theorem Word.ofAddress_default {n : Nat} (h : n ≤ 32767) :
    ofAddress n Settings.default.limit = .ok (ofNat n) := by
  refine ofAddress_eq_ok_iff.2 ⟨?_, rfl⟩
  change (0 : Int) ≤ n ∧ (n : Int) ≤ 32767
  omega

namespace Disassembly

variable {w : Word} {text t source : String} {address : Int} {entry : Entry} {n : Nat}
variable {texts ls : List String} {words : List Word}

/-- What the elements of the first list imply about those of the second one. -/
theorem forall_mem_of_forall₂ {α β : Type} {R : α → β → Prop} {p : β → Prop} {xs : List α}
    {ys : List β} (h : List.Forall₂ R xs ys) (hp : ∀ x y, R x y → p y) : ∀ y ∈ ys, p y := by
  induction h with
  | nil => simp
  | cons hxy _ ih => exact List.forall_mem_cons.2 ⟨hp _ _ hxy, ih⟩

/-- The canonical text of a word. -/
inductive Canonical : Word → String → Prop where
  | address (n : Nat) (small : n ≤ 32767) : Canonical (Word.ofNat n) ("@" ++ toString n)
  | compute (fields : Fields) (w : Word) (encoded : fields.encode = .ok w) :
    Canonical w fields.bare.text

theorem exists_canonical_iff : (∃ t, Canonical w t) ↔ w.IsEmitted := by
  constructor
  · rintro ⟨t, ⟨n, small⟩ | ⟨fields, w, encoded⟩⟩
    · refine .inl ⟨n, ?_, ?_⟩
      · simp only [Machine.addressMax]
        omega
      · exact Word.ofAddress_default small
    · exact .inr ⟨fields, encoded⟩
  · rintro (⟨address, ⟨hlow, hhigh⟩, haddress⟩ | ⟨fields, encoded⟩)
    · obtain ⟨-, rfl⟩ := Word.ofAddress_eq_ok_iff.1 haddress
      simp only [Machine.addressMax] at hhigh
      exact ⟨_, .address address.toNat (by omega)⟩
    · exact ⟨_, .compute fields w encoded⟩

/-! ### One word -/

theorem isSolid_of_isWord (h : isWord w = true) : IsSolid w.toList := by
  intro c hc
  rcases (isWord_iff.1 h).2 c hc with rfl | rfl <;> rfl

theorem trim_of_isWord (h : isWord w = true) : trim w = w :=
  trim_of_isSolid (isSolid_of_isWord h)

theorem isAllBlank_of_isWord (h : isWord w = true) : isAllBlank w = false := by
  have hne : w.toList ≠ [] := by
    intro hnil
    have hlength := (isWord_iff.1 h).1
    rw [hnil] at hlength
    exact absurd hlength (by decide)
  exact isAllBlank_of_isSolid (isSolid_of_isWord h) hne

/-- The word of an address of 15 bits is decoded as this address, whatever the map names. -/
theorem decodeWord_of_address {symbols : SymbolMap} (h : n ≤ 32767)
    (htext : trim text = Word.ofNat n) (address : Int) :
    decodeWord symbols text address = .ok (addressEntry symbols (Word.ofNat n) address) := by
  obtain ⟨digits, hdigits, -⟩ := Word.exists_ofNat_eq_cons h
  rw [decodeWord, htext]
  simp only [Word.isWord_ofNat h, hdigits, List.head?_cons]
  rfl

/-- A compute word is decoded as its fields, whatever the map names. -/
theorem decodeWord_of_fields {symbols : SymbolMap} {fields : Fields} (h : fields.encode = .ok w)
    (htext : trim text = w) (address : Int) :
    decodeWord symbols text address = .ok ⟨address, w, fields.bare.text, ""⟩ := by
  obtain ⟨hword, hstart⟩ := Fields.isWord_of_encode h
  -- The word begins with a one, so it loads no address.
  have hhead : w.toList.head? ≠ some '0' := by
    rw [Fields.head?_of_encode h]
    decide
  rw [decodeWord, htext]
  simp only [hword, hstart, hhead, Fields.decode_of_encode h]
  rfl

theorem Canonical.decodeWord (h : Canonical w t) (htext : trim text = w) :
    decodeWord [] text address = .ok ⟨address, w, t, ""⟩ := by
  cases h with
  | address n small =>
    rw [decodeWord_of_address small htext, addressEntry]
    simp only [List.lookup_nil, Word.value_ofNat]
  | compute fields w encoded => exact decodeWord_of_fields encoded htext address

theorem canonical_of_decodeWord (h : decodeWord [] text address = .ok entry) :
    Canonical (trim text) entry.text := by
  rw [decodeWord] at h
  split at h
  · exact absurd h (by simp)
  · next hword =>
    rw [Bool.not_eq_true, Bool.not_eq_false'] at hword
    split at h
    · next hhead =>
      -- A leading zero leaves 15 bits for the address.
      obtain ⟨small, hvalue⟩ := Word.ofNat_value hword hhead
      obtain rfl := Except.ok.inj h
      have hcanonical := Canonical.address _ small
      rwa [hvalue] at hcanonical
    · split at h
      · exact absurd h (by simp)
      · split at h
        · next fields hdecode =>
          -- Decoded fields hold no `null`, so they are written as they are.
          obtain ⟨encoded, hbare⟩ := Fields.encode_of_decode hdecode
          obtain rfl := Except.ok.inj h
          have hcanonical := Canonical.compute fields _ encoded
          rwa [hbare] at hcanonical
        · exact absurd h (by simp)

/-- A text is disassembled if and only if its word has a canonical text, and to this text. -/
theorem decodeWord_eq_ok_iff : decodeWord [] text address = .ok entry ↔
    ∃ t, Canonical (trim text) t ∧ entry = ⟨address, trim text, t, ""⟩ := by
  constructor
  · intro h
    have hcanonical := canonical_of_decodeWord h
    refine ⟨entry.text, hcanonical, ?_⟩
    rw [hcanonical.decodeWord rfl] at h
    exact (Except.ok.inj h).symm
  · rintro ⟨t, hcanonical, rfl⟩
    exact hcanonical.decodeWord rfl

theorem Canonical.isWord (h : Canonical w t) : isWord w = true := by
  cases h with
  | address n small => exact Word.isWord_ofNat small
  | compute fields w encoded => exact (Fields.isWord_of_encode encoded).1

/-! ### Lists of words -/

theorem decodeFrom_eq_ok_iff (address : Int) :
    (∃ entries, decodeFrom [] address texts = .ok entries ∧ entries.map (·.text) = ls) ↔
      List.Forall₂ Canonical (texts.map trim) ls := by
  -- The address moves on with the texts, but a canonical text does not depend on it.
  induction texts generalizing address ls with
  | nil =>
    rw [List.map_nil, List.forall₂_nil_left_iff]
    constructor
    · rintro ⟨entries, h, rfl⟩
      obtain rfl := Except.ok.inj h
      rfl
    · rintro rfl
      exact ⟨[], rfl, rfl⟩
  | cons text texts ih =>
    rw [List.map_cons, List.forall₂_cons_left_iff]
    constructor
    · rintro ⟨entries, h, rfl⟩
      rw [decodeFrom] at h
      split at h
      · exact absurd h (by simp)
      · next entry hentry =>
        split at h
        · exact absurd h (by simp)
        · next behind hbehind =>
          obtain rfl := Except.ok.inj h
          exact ⟨entry.text, behind.map (·.text), canonical_of_decodeWord hentry,
            (ih (address + 1)).1 ⟨behind, hbehind, rfl⟩, rfl⟩
    · rintro ⟨t, behind, hcanonical, hbehind, rfl⟩
      obtain ⟨entries, hentries, rfl⟩ := (ih (address + 1)).2 hbehind
      refine ⟨⟨address, trim text, t, ""⟩ :: entries, ?_, rfl⟩
      rw [decodeFrom, hcanonical.decodeWord rfl, hentries]

/-- The words among some texts, without the blanks around them. -/
def writtenWords (texts : List String) : List Word :=
  (texts.filter fun text => !isAllBlank text).map trim

/-- The disassembly of some texts is the canonical texts of their words, one below the other. -/
theorem sourceText_eq_ok_iff : sourceText [] texts = .ok source ↔
    ∃ ls, List.Forall₂ Canonical (writtenWords texts) ls ∧ joinLines ls ++ "\n" = source := by
  simp only [writtenWords, ← decodeFrom_eq_ok_iff 0]
  rw [sourceText, decodeWords_eq_decodeFrom, selected]
  cases decodeFrom [] 0 (texts.filter fun text => !isAllBlank text) with
  | error fault => simp [Except.map]
  | ok entries => simp [Except.map]

theorem exists_forall₂_canonical_iff :
    (∃ ls, List.Forall₂ Canonical words ls) ↔ ∀ w ∈ words, w.IsEmitted := by
  induction words with
  | nil => exact ⟨fun _ w hw => absurd hw List.not_mem_nil, fun _ => ⟨[], .nil⟩⟩
  | cons w words ih =>
    rw [List.forall_mem_cons, ← ih, ← exists_canonical_iff]
    constructor
    · rintro ⟨ls, h⟩
      obtain ⟨t, behind, hcanonical, hbehind, -⟩ := List.forall₂_cons_left_iff.1 h
      exact ⟨⟨t, hcanonical⟩, ⟨behind, hbehind⟩⟩
    · rintro ⟨⟨t, hcanonical⟩, ⟨behind, hbehind⟩⟩
      exact ⟨t :: behind, .cons hcanonical hbehind⟩

/-- Disassembly succeeds if and only if every text that is not blank is a word that the assembler
emits. -/
theorem exists_sourceText_iff : (∃ source, sourceText [] texts = .ok source) ↔
    ∀ text ∈ texts, isAllBlank text = false → Word.IsEmitted (trim text) := by
  have hwords : (∃ source, sourceText [] texts = .ok source) ↔
      ∃ ls, List.Forall₂ Canonical (writtenWords texts) ls := by
    simp only [sourceText_eq_ok_iff]
    exact ⟨fun ⟨_, ls, h, _⟩ => ⟨ls, h⟩, fun ⟨ls, h⟩ => ⟨_, ls, h, rfl⟩⟩
  rw [hwords, exists_forall₂_canonical_iff]
  constructor
  · intro h text htext hblank
    refine h (trim text) (List.mem_map_of_mem (List.mem_filter.2 ⟨htext, ?_⟩))
    rw [hblank]
    rfl
  · intro h w hw
    obtain ⟨text, htext, rfl⟩ := List.mem_map.1 hw
    obtain ⟨hmem, hblank⟩ := List.mem_filter.1 htext
    exact h text hmem (by simpa using hblank)

/-! ### Names for addresses -/

/-- A map of symbols changes how a word is shown, not whether it is decoded. -/
theorem exists_decodeWord_iff (symbols : SymbolMap) (text : String) (address : Int) :
    (∃ entry, decodeWord symbols text address = .ok entry) ↔ Word.IsEmitted (trim text) := by
  have hbare : (∃ entry, decodeWord symbols text address = .ok entry) ↔
      ∃ entry, decodeWord [] text address = .ok entry := by
    simp only [decodeWord]
    split
    · rfl
    · split
      · simp
      · rfl
  rw [hbare, ← exists_canonical_iff]
  simp only [decodeWord_eq_ok_iff]
  exact ⟨fun ⟨_, t, h, _⟩ => ⟨t, h⟩, fun ⟨t, h⟩ => ⟨_, t, h, rfl⟩⟩

/-- Texts are decoded exactly if every one of them is a word that the assembler emits. -/
theorem exists_decodeFrom_iff (symbols : SymbolMap) (address : Int) :
    (∃ entries, decodeFrom symbols address texts = .ok entries) ↔
      ∀ text ∈ texts, Word.IsEmitted (trim text) := by
  induction texts generalizing address with
  | nil => simp [decodeFrom]
  | cons text texts ih =>
    rw [List.forall_mem_cons, ← exists_decodeWord_iff symbols text address, ← ih (address + 1),
      decodeFrom]
    cases decodeWord symbols text address with
    | error fault => simp
    | ok entry => cases decodeFrom symbols (address + 1) texts <;> simp

/-- An address of 15 bits is shown by the name that the map has for it. -/
theorem decodeWord_ofNat_of_named {symbols : SymbolMap} {name : String} (h : n ≤ 32767)
    (hname : symbols.lookup (n : Int) = some name) (address : Int) :
    decodeWord symbols (Word.ofNat n) address =
      .ok ⟨address, Word.ofNat n, "@" ++ name, toString n⟩ := by
  rw [decodeWord_of_address h (trim_of_isWord (Word.isWord_ofNat h)), addressEntry]
  simp only [Word.value_ofNat, hname]

/-- An address of 15 bits for which the map has no name is shown as a decimal number. -/
theorem decodeWord_ofNat_of_unnamed {symbols : SymbolMap} (h : n ≤ 32767)
    (hname : symbols.lookup (n : Int) = none) (address : Int) :
    decodeWord symbols (Word.ofNat n) address =
      .ok ⟨address, Word.ofNat n, "@" ++ toString n, ""⟩ := by
  rw [decodeWord_of_address h (trim_of_isWord (Word.isWord_ofNat h)), addressEntry]
  simp only [Word.value_ofNat, hname]

/-- A compute word is shown as its fields. -/
theorem decodeWord_of_encode {symbols : SymbolMap} {fields : Fields} (h : fields.encode = .ok w)
    (address : Int) : decodeWord symbols w address = .ok ⟨address, w, fields.bare.text, ""⟩ :=
  decodeWord_of_fields h (trim_of_isWord (Fields.isWord_of_encode h).1) address

/-- All words among some texts are selected, if the texts are words. -/
theorem selected_of_isWord (h : ∀ w ∈ words, isWord w = true) : selected none words = words := by
  apply List.filter_eq_self.2
  intro w hw
  rw [isAllBlank_of_isWord (h w hw)]
  rfl

/-- Texts that are decoded one by one are decoded as a list. -/
theorem exists_decodeFrom_of_forall₂ {α : Type} {R : α → String → Prop} {Q : α → Entry → Prop}
    {symbols : SymbolMap} {xs : List α}
    (hstep : ∀ x text, R x text → ∀ address,
      ∃ entry, decodeWord symbols text address = .ok entry ∧ Q x entry)
    (h : List.Forall₂ R xs texts) (address : Int) :
    ∃ entries, decodeFrom symbols address texts = .ok entries ∧ List.Forall₂ Q xs entries := by
  induction h generalizing address with
  | nil => exact ⟨[], rfl, .nil⟩
  | cons hfirst _ ih =>
    obtain ⟨entry, hentry, hshown⟩ := hstep _ _ hfirst address
    obtain ⟨entries, hentries, hbehind⟩ := ih (address + 1)
    exact ⟨entry :: entries, by rw [decodeFrom, hentry, hentries], .cons hshown hbehind⟩

end Disassembly

end HackToolchain
