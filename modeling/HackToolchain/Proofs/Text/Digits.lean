import HackToolchain.Proofs.Text.Layout
import HackToolchain.Text.Numeral
import Mathlib.Algebra.Group.Nat.Defs
import Mathlib.Algebra.Ring.Int.Defs
import Mathlib.Data.List.Basic
import Mathlib.Data.List.Induction
import Mathlib.Data.List.TakeWhile

/-!
# Digits and their values

A number is written in base two for the machine and in base ten for the reader. Of the binary digits
of a fixed length, no two lists have the same value; a decimal number consists of digits only, so it
is read as a literal again, and as an integer.
-/

namespace HackToolchain.Text

variable {xs ys : List Char} {n : Nat}

/-! ### Binary digits -/

/-- A list of the digits `0` and `1`. -/
def IsBinary (cs : List Char) : Prop :=
  ∀ c ∈ cs, c = '0' ∨ c = '1'

theorem isBinary_append : IsBinary (xs ++ ys) ↔ IsBinary xs ∧ IsBinary ys := by
  simp only [IsBinary, List.mem_append, or_imp, forall_and]

theorem isBinary_singleton {c : Char} : IsBinary [c] ↔ c = '0' ∨ c = '1' := by
  simp [IsBinary]

theorem ofDigitChars_concat (c : Char) : Nat.ofDigitChars 2 (xs ++ [c]) 0 =
    2 * Nat.ofDigitChars 2 xs 0 + (c.toNat - '0'.toNat) := by
  rw [Nat.ofDigitChars_append, Nat.ofDigitChars_cons, Nat.ofDigitChars_nil]

theorem ofDigitChars_lt_two_pow (h : IsBinary xs) :
    Nat.ofDigitChars 2 xs 0 < 2 ^ xs.length := by
  induction xs using List.reverseRecOn with
  | nil => simp
  | append_singleton xs c ih =>
    obtain ⟨hxs, hc⟩ := isBinary_append.1 h
    have hvalue := ih hxs
    rw [ofDigitChars_concat, List.length_append, List.length_singleton, Nat.pow_succ]
    rcases isBinary_singleton.1 hc with rfl | rfl <;> simp only [Char.reduceToNat] <;> omega

/-- Binary digits of one length are determined by their value. -/
theorem eq_of_ofDigitChars_eq (hx : IsBinary xs) (hy : IsBinary ys)
    (hlength : xs.length = ys.length)
    (h : Nat.ofDigitChars 2 xs 0 = Nat.ofDigitChars 2 ys 0) : xs = ys := by
  -- The last digit is the value modulo two, and the other digits have half of the value.
  induction xs using List.reverseRecOn generalizing ys with
  | nil => exact (List.length_eq_zero_iff.1 hlength.symm).symm
  | append_singleton xs c ih =>
    rcases List.eq_nil_or_concat ys with rfl | ⟨ys, d, rfl⟩
    · simp at hlength
    · simp only [List.concat_eq_append] at hlength h hy ⊢
      rw [ofDigitChars_concat, ofDigitChars_concat] at h
      obtain ⟨hxs, hc⟩ := isBinary_append.1 hx
      obtain ⟨hys, hd⟩ := isBinary_append.1 hy
      simp only [List.length_append, List.length_singleton, Nat.add_right_cancel_iff] at hlength
      -- The last digits agree, since twice the rest is even on both sides.
      have hlast : c = d ∧ Nat.ofDigitChars 2 xs 0 = Nat.ofDigitChars 2 ys 0 := by
        rcases isBinary_singleton.1 hc with rfl | rfl <;>
          rcases isBinary_singleton.1 hd with rfl | rfl <;>
          simp only [Char.reduceToNat] at h <;> simp <;> omega
      rw [hlast.1, ih hxs hys hlength hlast.2]

theorem isBinary_toDigits (n : Nat) : IsBinary (Nat.toDigits 2 n) := by
  -- The digits of a number are those of its half and one more.
  induction n using Nat.strongRecOn with
  | ind n ih =>
    rw [Nat.toDigits_eq_if (by decide)]
    have hdigit (m : Nat) (hm : m < 2) : IsBinary [m.digitChar] := by
      rw [isBinary_singleton]
      rcases (show m = 0 ∨ m = 1 by omega) with rfl | rfl
      · exact .inl rfl
      · exact .inr rfl
    split
    · next h => exact hdigit n h
    · next h =>
      exact isBinary_append.2 ⟨ih (n / 2) (by omega), hdigit (n % 2) (by omega)⟩

/-! ### Decimal digits -/

theorem toList_toString : (toString n).toList = Nat.toDigits 10 n := by
  rw [Nat.toString_eq_ofList_toDigits, String.toList_ofList]

theorem isAsciiDigit_of_mem_toDigits {c : Char} (h : c ∈ Nat.toDigits 10 n) :
    isAsciiDigit c = true := by
  have hdigit := Nat.isDigit_of_mem_toDigits (by decide) (by decide) h
  simpa [isAsciiDigit, Char.isDigit, Char.le_def] using hdigit

theorem isBlank_of_isAsciiDigit {c : Char} (h : isAsciiDigit c = true) : isBlank c = false := by
  have hrange : 0x30 ≤ c.toNat ∧ c.toNat ≤ 0x39 := by
    simpa [isAsciiDigit, Char.le_def, UInt32.le_iff_toNat_le] using h
  simp only [isBlank, Bool.or_eq_false_iff, Bool.and_eq_false_iff, decide_eq_false_iff_not,
    beq_eq_false_iff_ne]
  omega

/-- A literal has no blanks. -/
theorem isSolid_of_isLiteral {text : String} (h : Numeral.isLiteral text = true) :
    IsSolid text.toList ∧ text.toList ≠ [] := by
  obtain ⟨hne, hdigits⟩ : text.toList ≠ [] ∧ ∀ c ∈ text.toList, isAsciiDigit c = true := by
    simpa [Numeral.isLiteral] using h
  exact ⟨fun c hc => isBlank_of_isAsciiDigit (hdigits c hc), hne⟩

namespace Numeral

/-- A decimal number is a literal. -/
theorem isLiteral_toString : isLiteral (toString n) = true := by
  rw [isLiteral, toList_toString, Bool.and_eq_true]
  refine ⟨?_, List.all_eq_true.2 fun c hc => isAsciiDigit_of_mem_toDigits hc⟩
  simp

/-- Five digits are far below the limit for numerals. -/
theorem lt_pow_digitLimit (h : n ≤ 32767) : n < 10 ^ digitLimit := by
  have hfive : (10 : Nat) ^ 5 ≤ 10 ^ digitLimit :=
    Nat.pow_le_pow_right (by decide) (by decide)
  omega

/-- A decimal number within the limit of digits is read as its value. -/
theorem readLiteral_toString (h : n < 10 ^ digitLimit) : readLiteral (toString n) = .ok n := by
  have hlength : (Nat.toDigits 10 n).length ≤ digitLimit :=
    (Nat.length_toDigits_le_iff (by decide) (by decide)).2 h
  rw [readLiteral, toList_toString, if_neg (by omega), Nat.ofDigitChars_ten_toDigits]

/-- An integer can be written if its magnitude has no more digits than the limit. -/
theorem isWritable_iff {n : Int} : isWritable n = true ↔ n.natAbs < 10 ^ digitLimit := by
  rw [isWritable, decide_eq_true_iff, Nat.length_toDigits_le_iff (by decide) (by decide)]

/-- A natural number is written if one that is at least as large is. -/
theorem isWritable_of_le {m : Nat} (hle : m ≤ n) (h : isWritable n = true) :
    isWritable m = true := by
  rw [isWritable_iff] at h ⊢
  exact Nat.lt_of_le_of_lt hle h

/-- A power of ten has one digit more than its exponent says. -/
theorem isWritable_pow_iff : isWritable ((10 : Int) ^ n) = true ↔ n < digitLimit := by
  have hten : Int.natAbs 10 = 10 := rfl
  rw [isWritable_iff, Int.natAbs_pow, hten, Nat.pow_lt_pow_iff_right (by decide)]

/-- The number before a power of ten has as many digits as the exponent says. -/
theorem isWritable_pow_sub_one (h : n ≤ digitLimit) : isWritable ((10 : Int) ^ n - 1) = true := by
  have hpos : 0 < 10 ^ n := Nat.pow_pos (by decide)
  have hle : 10 ^ n ≤ 10 ^ digitLimit := Nat.pow_le_pow_right (by decide) h
  have hcast : (10 : Int) ^ n = ((10 ^ n : Nat) : Int) := (Int.natCast_pow 10 n).symm
  rw [isWritable_iff, hcast]
  omega

/-- Five digits are far below the limit, also for an integer. -/
theorem lt_intPow_digitLimit {m : Int} (h : m ≤ 65535) : m < 10 ^ digitLimit := by
  have hpow (k : Nat) (hk : 5 ≤ k) : m < 10 ^ k := by
    have hfive : (10 : Int) ^ 5 ≤ 10 ^ k := by exact_mod_cast Nat.pow_le_pow_right (by decide) hk
    omega
  exact hpow digitLimit (by decide)

theorem trimWhile_of_forall {p : Char → Bool} {cs : List Char} (h : ∀ c ∈ cs, p c = false) :
    trimWhile p cs = cs := by
  have hkeep (ds : List Char) (hds : ∀ c ∈ ds, p c = false) : ds.dropWhile p = ds := by
    cases ds with
    | nil => rfl
    | cons d ds => rw [List.dropWhile_cons_of_neg (by simp [hds d])]
  rw [trimWhile, hkeep cs h, hkeep cs.reverse fun c hc => h c (List.mem_reverse.1 hc),
    List.reverse_reverse]

/-- The value of one of the digits `0` to `9`. -/
theorem digitValue?_of_isAsciiDigit {c : Char} (h : isAsciiDigit c = true) :
    digitValue? c = some (c.toNat - '0'.toNat) := by
  have hrange : 0x30 ≤ c.toNat ∧ c.toNat ≤ 0x39 := by
    simpa [isAsciiDigit, Char.le_def, UInt32.le_iff_toNat_le] using h
  have hfirst : (decide (0x30 ≤ c.toNat) && decide (c.toNat < 0x30 + 10)) = true := by
    simp only [Bool.and_eq_true, decide_eq_true_eq]
    omega
  have hfind : digitZeros.find?
      (fun first => decide (first ≤ c.toNat) && decide (c.toNat < first + 10)) = some 0x30 :=
    List.find?_cons_of_pos hfirst
  rw [digitValue?, hfind]
  rfl

/-- Digits without underscores are grouped. -/
theorem isGrouped_of_forall {cs : List Char} (hne : cs ≠ [])
    (h : ∀ c ∈ cs, isAsciiDigit c = true) : isGrouped cs = true := by
  induction cs with
  | nil => exact absurd rfl hne
  | cons c cs ih =>
    have hc : c ≠ '_' := by
      rintro rfl
      exact absurd (h '_' List.mem_cons_self) (by decide)
    cases cs with
    | nil => rw [isGrouped]; simpa using hc
    | cons d ds =>
      have hd : d ≠ '_' := by
        rintro rfl
        exact absurd (h '_' (by simp)) (by decide)
      have hrest := ih (by simp) fun e he => h e (List.mem_cons_of_mem c he)
      rw [isGrouped]
      · exact hrest
      · simpa using hc
      · simpa using hd

theorem ofDigits_map (cs : List Char) :
    ofDigits (cs.map fun c => c.toNat - '0'.toNat) = Nat.ofDigitChars 10 cs 0 := by
  have hfold (value : Nat) : (cs.map fun c => c.toNat - '0'.toNat).foldl
      (fun value digit => 10 * value + digit) value = Nat.ofDigitChars 10 cs value := by
    induction cs generalizing value with
    | nil => rfl
    | cons c cs ih => rw [List.map_cons, List.foldl_cons, ih, Nat.ofDigitChars_cons]
  exact hfold 0

theorem splitSign_of_isAsciiDigit {cs : List Char} (h : ∀ c ∈ cs, isAsciiDigit c = true) :
    splitSign cs = (1, cs) := by
  rw [splitSign.eq_def]
  split
  · exact absurd (h '+' List.mem_cons_self) (by decide)
  · exact absurd (h '-' List.mem_cons_self) (by decide)
  · rfl

/-- A number that can be written is read again. -/
theorem readInt_toString (h : isWritable n = true) : readInt (toString n) = .ok n := by
  have hdigits : ∀ c ∈ Nat.toDigits 10 n, isAsciiDigit c = true :=
    fun c hc => isAsciiDigit_of_mem_toDigits hc
  have hmargin : ∀ c ∈ Nat.toDigits 10 n, isMargin c = false := fun c hc => by
    simp [isMargin, isBlank_of_isAsciiDigit (hdigits c hc)]
  have hrun : (Nat.toDigits 10 n).takeWhile isDigitOrMark = Nat.toDigits 10 n := by
    refine List.takeWhile_eq_self_iff.2 fun c hc => ?_
    simp [isDigitOrMark, digitValue?_of_isAsciiDigit (hdigits c hc)]
  have hvalues : (Nat.toDigits 10 n).filterMap digitValue? =
      (Nat.toDigits 10 n).map fun c => c.toNat - '0'.toNat :=
    List.filterMap_eq_map_iff_forall_eq_some.2 fun c hc =>
      digitValue?_of_isAsciiDigit (hdigits c hc)
  have hlength : (Nat.toDigits 10 n).length ≤ digitLimit := by
    simpa [isWritable] using h
  rw [readInt, toList_toString, trimWhile_of_forall hmargin, splitSign_of_isAsciiDigit hdigits]
  simp only [hrun, hvalues, isGrouped_of_forall Nat.toDigits_ne_nil hdigits, List.length_map,
    if_neg (Nat.not_lt.2 hlength), ofDigits_map, Nat.ofDigitChars_ten_toDigits]
  simp

end Numeral

end HackToolchain.Text
