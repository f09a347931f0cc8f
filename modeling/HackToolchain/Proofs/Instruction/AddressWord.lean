import HackToolchain.Failure
import HackToolchain.Proofs.Disassembly.Canonical
import HackToolchain.Proofs.Symbol.Conflict
import HackToolchain.Proofs.Text.Digits
import Mathlib.Data.Nat.Size

/-!
# Words of addresses

An address from zero up to the limit has a word, and no other integer has one. The word is the
address in binary digits. It has as many as a word has, or as many as the address has bits if these
are more, which a limit above 16 bits allows. So the word determines the address, and an address of
15 bits is printed again by the disassembler.

A refusal names the address and the limit. An address or a limit with more digits than can be
written is refused too, but not with the diagnostic that is meant for it.
-/

namespace HackToolchain

open Text

namespace Word

variable {n : Nat} {address other : Int} {limit otherLimit : Option Int} {w : Word} {cause : Cause}

/-- The word of an address has at least as many digits as the address has bits. -/
theorem length_ofNat_eq_max_size :
    (ofNat n).toList.length = max Machine.wordLength (Nat.size n) := by
  rw [length_ofNat]
  -- Zero has one digit and no bit, so the lengths agree only from the length of a word on.
  refine eq_of_forall_ge_iff fun k => ?_
  rw [Nat.max_le, Nat.max_le]
  refine and_congr_right fun hk => ?_
  have hpos : 0 < k := Nat.lt_of_lt_of_le (by decide) hk
  rw [Nat.length_toDigits_le_iff (by decide) hpos, Nat.size_le]

theorem encodeAddress_eq_ok_iff : encodeAddress address limit = .ok w ↔
    ofAddress address limit = .ok w := by
  rw [encodeAddress]
  cases ofAddress address limit <;> simp [Except.mapError]

theorem ofAddress_eq_error_iff : ofAddress address limit = .error cause ↔
    ¬ (0 ≤ address ∧ address ≤ addressLimit limit) ∧
      cause = .addressRange address (addressLimit limit) := by
  rw [ofAddress]
  split
  · next h => simp [h]
  · next h => simp [h, eq_comm]

/-- A refusal is reported if the address and the limit can be written. -/
theorem ofCause_addressRange (value maximum : Int) :
    Failure.ofCause (.addressRange value maximum) =
      if Numeral.isWritable value = true ∧ Numeral.isWritable maximum = true then
        .diagnosed (.ofCause (.addressRange value maximum))
      else .unwritable .longNumber := by
  have hcaret : Diagnostic.caretObstacle? ampleMemory none none = none := rfl
  have hnumbers : (Diagnostic.ofCause (.addressRange value maximum)).numbers = [value, maximum] := rfl
  rw [Failure.ofCause, Interruption.ofCause, Interruption.ofDiagnostic_of_caret hcaret, hnumbers]
  simp only [List.forall_mem_cons, List.not_mem_nil, false_implies, implies_true, and_true]
  split <;> rfl

/-- Whatever is no address from zero up to the limit is refused. -/
theorem encodeAddress_eq_error_iff {failure : Failure} :
    encodeAddress address limit = .error failure ↔
      ¬ (0 ≤ address ∧ address ≤ addressLimit limit) ∧
        failure = .ofCause (.addressRange address (addressLimit limit)) := by
  rw [encodeAddress]
  cases hword : ofAddress address limit with
  | ok w =>
    have haddress := (ofAddress_eq_ok_iff.1 hword).1
    simp [Except.mapError, haddress]
  | error cause =>
    obtain ⟨haddress, rfl⟩ := ofAddress_eq_error_iff.1 hword
    simp only [Except.mapError, Except.error.injEq, haddress, not_false_eq_true, true_and]
    exact eq_comm

/-- The word of an address has the address as its value. -/
theorem value_of_ofAddress (h : ofAddress address limit = .ok w) :
    (Nat.ofDigitChars 2 w.toList 0 : Int) = address := by
  obtain ⟨⟨hlow, -⟩, rfl⟩ := ofAddress_eq_ok_iff.1 h
  rw [value_ofNat, Int.toNat_of_nonneg hlow]

/-- Whatever the limits are, a word is that of one address only. -/
theorem ofAddress_injective (h : ofAddress address limit = .ok w)
    (hother : ofAddress other otherLimit = .ok w) : other = address :=
  (value_of_ofAddress hother).symm.trans (value_of_ofAddress h)

/-- An address of 15 bits is printed as its decimal number. -/
theorem decodeWord_of_ofAddress (h : ofAddress address limit = .ok w) (hsmall : address < 32768)
    (index : Int) :
    Disassembly.decodeWord [] w index = .ok ⟨index, w, "@" ++ toString address, ""⟩ := by
  obtain ⟨⟨hlow, -⟩, rfl⟩ := ofAddress_eq_ok_iff.1 h
  obtain ⟨n, rfl⟩ := Int.eq_ofNat_of_zero_le hlow
  have hcanonical := Disassembly.Canonical.address n (by omega)
  exact hcanonical.decodeWord (Disassembly.trim_of_isWord hcanonical.isWord)

/-- An integer has a word if and only if it is an address from zero up to the limit, which is 65535
if none is given. Any other integer is refused, with a diagnostic that names it and the limit if both
can be written. The word consists of binary digits. Its value is the address, and its length is that of
a word or the number of bits of the address. No other address has this word, and if it has 15 bits,
the disassembler prints it as its decimal number. -/
theorem encodeAddress_exact (address : Int) (limit : Option Int) :
    let maximum := limit.getD 65535
    ((∃ w, encodeAddress address limit = .ok w) ↔ 0 ≤ address ∧ address ≤ maximum) ∧
    (∀ failure, encodeAddress address limit = .error failure ↔
      (address < 0 ∨ maximum < address) ∧ failure =
        if Numeral.isWritable address = true ∧ Numeral.isWritable maximum = true then
          .diagnosed (.ofCause (.addressRange address maximum))
        else .unwritable .longNumber) ∧
    ∀ w, encodeAddress address limit = .ok w →
      (∀ c ∈ w.toList, c = '0' ∨ c = '1') ∧
      (Nat.ofDigitChars 2 w.toList 0 : Int) = address ∧
      w.toList.length = max 16 (Nat.size address.toNat) ∧
      (∀ other otherLimit, encodeAddress other otherLimit = .ok w → other = address) ∧
      (address < 32768 → ∀ index,
        Disassembly.decodeWord [] w index = .ok ⟨index, w, "@" ++ toString address, ""⟩) := by
  intro maximum
  simp only [encodeAddress_eq_ok_iff]
  refine ⟨?_, fun failure => ?_, fun w h => ?_⟩
  · simp only [ofAddress_eq_ok_iff, exists_and_left, exists_eq, and_true]
    rfl
  · rw [encodeAddress_eq_error_iff, ofCause_addressRange, not_and_or, Int.not_le, Int.not_le]
    rfl
  · obtain ⟨-, hw⟩ := ofAddress_eq_ok_iff.1 h
    refine ⟨hw ▸ isBinary_ofNat, value_of_ofAddress h, hw ▸ length_ofNat_eq_max_size, ?_, ?_⟩
    · exact fun _ _ => ofAddress_injective h
    · exact decodeWord_of_ofAddress h

/-- The largest address of 15 bits, and the first that a longer word needs. -/
theorem encodeAddress_exact_borders :
    encodeAddress 32767 none = .ok "0111111111111111" ∧
    Disassembly.decodeWord [] "0111111111111111" 0 =
      .ok ⟨0, "0111111111111111", "@32767", ""⟩ ∧
    encodeAddress 65536 (some 65536) = .ok "10000000000000000" ∧
    "10000000000000000".toList.length = max 16 (Nat.size 65536) ∧
    encodeAddress 65536 none = .error (.diagnosed (.ofCause (.addressRange 65536 65535))) := by
  have hsmall : encodeAddress 32767 none = .ok "0111111111111111" := rfl
  have hlong : encodeAddress 65536 (some 65536) = .ok "10000000000000000" := rfl
  obtain ⟨-, -, hword⟩ := encodeAddress_exact 32767 none
  obtain ⟨-, -, -, -, hprinted⟩ := hword _ hsmall
  obtain ⟨-, -, hlongWord⟩ := encodeAddress_exact 65536 (some 65536)
  obtain ⟨-, -, hlength, -⟩ := hlongWord _ hlong
  obtain ⟨-, hrefused, -⟩ := encodeAddress_exact 65536 none
  have hwritable : Numeral.isWritable 65536 = true ∧ Numeral.isWritable 65535 = true := by decide
  exact ⟨hsmall, hprinted (by decide) 0, hlong, hlength,
    (hrefused _).2 ⟨.inr (by decide), (if_pos hwritable).symm⟩⟩

/-- An address above the limit is refused, but not with the diagnostic that names it. -/
theorem encodeAddress_beyond_digits :
    (65535 : Int) < 10 ^ Numeral.digitLimit ∧
    encodeAddress (10 ^ Numeral.digitLimit) none = .error (.unwritable .longNumber) := by
  have habove : (65535 : Int) < 10 ^ Numeral.digitLimit :=
    Numeral.lt_intPow_digitLimit (Int.le_refl _)
  have hlong : ¬ Numeral.isWritable ((10 : Int) ^ Numeral.digitLimit) = true :=
    Numeral.isWritable_pow_iff.not.2 (Nat.lt_irrefl _)
  refine ⟨habove, ?_⟩
  rw [encodeAddress_eq_error_iff, ofCause_addressRange, if_neg (fun h => hlong h.1)]
  exact ⟨fun h => Int.not_lt.2 h.2 habove, rfl⟩

end Word

end HackToolchain
