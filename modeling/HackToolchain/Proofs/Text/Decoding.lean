import HackToolchain.Text.Utf8

/-!
# Decoding what was encoded

The bytes of a character take the decoding machine from between characters back to between
characters, and it yields the character. Bytes that are cut off inside a character leave the machine
waiting, so the fault is an unexpected end at the first byte of that character.
-/

namespace HackToolchain.Text.Utf8

variable {c : Char} {cs : List Char} {p : Pending} {b : UInt8} {bytes rest front back : Bytes}
variable {n position : Nat}

/-! ### Inside a character -/

/-- The machine inside a character after one more byte that is not the last one. -/
def Pending.longer (p : Pending) (b : UInt8) : Pending :=
  ⟨p.sequence ++ [b], p.bits * 0x40 + (b.toNat - 0x80), p.remaining - 1, 0x80, 0xBF⟩

/-- The bytes that complete a character which is being read. -/
inductive Continues : Pending → Bytes → Char → Prop where
  | last (p : Pending) (b : UInt8) (c : Char) (range : p.least ≤ b.toNat ∧ b.toNat ≤ p.greatest)
    (single : p.remaining ≤ 1) (value : Char.ofNat (p.bits * 0x40 + (b.toNat - 0x80)) = c) :
    Continues p [b] c
  | more (p : Pending) (b : UInt8) (bytes : Bytes) (c : Char)
    (range : p.least ≤ b.toNat ∧ b.toNat ≤ p.greatest) (several : 1 < p.remaining)
    (behind : Continues (p.longer b) bytes c) : Continues p (b :: bytes) c

/-- The bytes that complete a character yield it, and the machine is between characters again. -/
theorem Continues.decodeFrom (h : Continues p bytes c) (rest : Bytes) (position : Nat) :
    decodeFrom position (some p) (bytes ++ rest) =
      (decodeFrom (position + bytes.length) none rest).cons c := by
  induction h generalizing position with
  | last p b c range single value =>
    rw [List.singleton_append, Utf8.decodeFrom, if_pos range]
    simp only [if_pos single, value]
    rfl
  | more p b bytes c range several _ ih =>
    rw [List.cons_append, Utf8.decodeFrom, if_pos range]
    simp only [if_neg (Nat.not_le.2 several)]
    rw [List.length_cons, Nat.add_comm bytes.length, ← Nat.add_assoc]
    exact ih (position + 1)

/-- Bytes that do not yet complete the character leave the machine waiting. -/
theorem Continues.decodeFrom_front (h : Continues p bytes c) (hbytes : front ++ back = bytes)
    (hback : back ≠ []) (hposition : p.sequence.length ≤ position) :
    Utf8.decodeFrom position (some p) front =
      ⟨[], some ⟨p.sequence ++ front, position - p.sequence.length, .unexpectedEnd⟩⟩ := by
  induction h generalizing front position with
  | last p b c range single value =>
    -- Of a single byte only nothing can be read in advance.
    have hfront : front = [] := by
      cases front with
      | nil => rfl
      | cons d front => simp [hback] at hbytes
    rw [hfront, Utf8.decodeFrom, List.append_nil]
  | more p b bytes c range several _ ih =>
    cases front with
    | nil => rw [Utf8.decodeFrom, List.append_nil]
    | cons d front =>
      obtain ⟨rfl, hbehind⟩ := List.cons.inj hbytes
      have hlength : (p.longer d).sequence.length = p.sequence.length + 1 := by
        rw [Pending.longer, List.length_append, List.length_singleton]
      have hread : (p.longer d).sequence.length ≤ position + 1 := by omega
      have hwaiting := ih hbehind hread
      rw [Utf8.decodeFrom, if_pos range]
      simp only [if_neg (Nat.not_le.2 several)]
      refine hwaiting.trans ?_
      rw [hlength, Nat.add_sub_add_right, Pending.longer, List.append_assoc,
        List.singleton_append]

/-! ### The bytes of a character -/

theorem toNat_ofNat_of_lt (h : n < 256) : (UInt8.ofNat n).toNat = n :=
  UInt8.toNat_ofNat_of_lt' h

theorem announce_two (h : 0xC2 ≤ n ∧ n < 0xE0) :
    announce (.ofNat n) = some (.inr ⟨[.ofNat n], n - 0xC0, 1, 0x80, 0xBF⟩) := by
  simp only [announce, toNat_ofNat_of_lt (show n < 256 by omega)]
  rw [if_neg (by omega), if_neg (by omega), if_pos (by omega)]

/-- The first of three bytes keeps the next one away from overlong forms and from surrogates. -/
theorem announce_three (h : 0xE0 ≤ n ∧ n < 0xF0) : announce (.ofNat n) = some (.inr
    ⟨[.ofNat n], n - 0xE0, 2, if n = 0xE0 then 0xA0 else 0x80,
      if n = 0xED then 0x9F else 0xBF⟩) := by
  simp only [announce, toNat_ofNat_of_lt (show n < 256 by omega), beq_iff_eq]
  rw [if_neg (by omega), if_neg (by omega), if_neg (by omega)]
  by_cases hfirst : n = 0xE0
  · subst hfirst
    rfl
  · by_cases hsurrogate : n = 0xED
    · subst hsurrogate
      rfl
    · rw [if_neg hfirst, if_neg hsurrogate, if_pos h.2, if_neg hfirst, if_neg hsurrogate]

/-- The first of four bytes keeps the next one away from overlong forms and from numbers that are no
characters. -/
theorem announce_four (h : 0xF0 ≤ n ∧ n ≤ 0xF4) : announce (.ofNat n) = some (.inr
    ⟨[.ofNat n], n - 0xF0, 3, if n = 0xF0 then 0x90 else 0x80,
      if n = 0xF4 then 0x8F else 0xBF⟩) := by
  obtain rfl | rfl | rfl | rfl | rfl :
      n = 0xF0 ∨ n = 0xF1 ∨ n = 0xF2 ∨ n = 0xF3 ∨ n = 0xF4 := by omega
  all_goals rfl

theorem continues_last {sequence : Bytes} {bits least greatest : Nat} (hn : n < 0x40)
    (range : least ≤ 0x80 + n ∧ 0x80 + n ≤ greatest) (value : Char.ofNat (bits * 0x40 + n) = c) :
    Continues ⟨sequence, bits, 1, least, greatest⟩ [.ofNat (0x80 + n)] c := by
  have hbyte : (UInt8.ofNat (0x80 + n)).toNat = 0x80 + n := toNat_ofNat_of_lt (by omega)
  refine .last _ _ _ (by rwa [hbyte]) Nat.le.refl ?_
  rwa [hbyte, Nat.add_sub_cancel_left]

theorem continues_more {sequence : Bytes} {bits remaining least greatest : Nat} (hn : n < 0x40)
    (range : least ≤ 0x80 + n ∧ 0x80 + n ≤ greatest)
    (behind : Continues
      ⟨sequence ++ [.ofNat (0x80 + n)], bits * 0x40 + n, remaining + 1, 0x80, 0xBF⟩ bytes c) :
    Continues ⟨sequence, bits, remaining + 2, least, greatest⟩ (.ofNat (0x80 + n) :: bytes) c := by
  have hbyte : (UInt8.ofNat (0x80 + n)).toNat = 0x80 + n := toNat_ofNat_of_lt (by omega)
  refine .more _ _ _ _ (by rwa [hbyte]) (Nat.lt_add_left remaining Nat.one_lt_two) ?_
  rwa [Pending.longer, hbyte, Nat.add_sub_cancel_left]

/-- The first byte of a character is the character, or it announces the bytes that complete it. -/
theorem announce_encodeChar (c : Char) :
    (∃ b, encodeChar c = [b] ∧ announce b = some (.inl c)) ∨
      ∃ b p bytes, encodeChar c = b :: bytes ∧ announce b = some (.inr p) ∧
        p.sequence = [b] ∧ Continues p bytes c := by
  have hvalid : c.toNat < 0xD800 ∨ (0xDFFF < c.toNat ∧ c.toNat < 0x110000) := c.valid
  have hchar (m : Nat) (hm : m = c.toNat) : Char.ofNat m = c := by
    rw [hm, Char.ofNat_toNat]
  rw [encodeChar]
  -- From here on, only the number of the character matters.
  generalize c.toNat = n at hvalid hchar
  by_cases hone : n < 0x80
  · refine .inl ⟨.ofNat n, if_pos hone, ?_⟩
    rw [announce, toNat_ofNat_of_lt (by omega)]
    simp only [if_pos hone, hchar]
  rw [if_neg hone]
  right
  by_cases htwo : n < 0x800
  · refine ⟨_, _, _, if_pos htwo, announce_two (by omega), rfl, ?_⟩
    exact continues_last (by omega) (by omega) (hchar _ (by omega))
  rw [if_neg htwo]
  by_cases hthree : n < 0x10000
  · refine ⟨_, _, _, if_pos hthree, announce_three (by omega), rfl, ?_⟩
    refine continues_more (by omega) ?_ ?_
    · constructor <;> split <;> omega
    · exact continues_last (by omega) (by omega) (hchar _ (by omega))
  · rw [if_neg hthree]
    refine ⟨_, _, _, rfl, announce_four (by omega), rfl, ?_⟩
    refine continues_more (by omega) ?_ ?_
    · constructor <;> split <;> omega
    · refine continues_more (by omega) (by omega) ?_
      exact continues_last (by omega) (by omega) (hchar _ (by omega))

theorem decodeFrom_encodeChar (c : Char) (rest : Bytes) (position : Nat) :
    decodeFrom position none (encodeChar c ++ rest) =
      (decodeFrom (position + (encodeChar c).length) none rest).cons c := by
  rcases announce_encodeChar c with ⟨b, hbytes, hannounce⟩ |
    ⟨b, p, bytes, hbytes, hannounce, -, hcontinues⟩
  · rw [hbytes, List.singleton_append, decodeFrom]
    simp only [hannounce]
    rfl
  · rw [hbytes, List.cons_append, decodeFrom]
    simp only [hannounce]
    rw [hcontinues.decodeFrom, List.length_cons, Nat.add_assoc, Nat.add_comm 1]

/-- A character that is cut off ends the text unexpectedly. -/
theorem decodeFrom_front (h : front ++ back = encodeChar c) (hfront : front ≠ [])
    (hback : back ≠ []) :
    decodeFrom position none front = ⟨[], some ⟨front, position, .unexpectedEnd⟩⟩ := by
  obtain ⟨d, front, rfl⟩ := List.exists_cons_of_ne_nil hfront
  rcases announce_encodeChar c with ⟨b, hbytes, -⟩ |
    ⟨b, p, bytes, hbytes, hannounce, hsequence, hcontinues⟩
  · -- There is no room for a cut in a single byte.
    rw [hbytes, List.cons_append] at h
    obtain ⟨-, hnil⟩ := List.cons.inj h
    exact absurd (List.append_eq_nil_iff.1 hnil).2 hback
  · rw [hbytes, List.cons_append] at h
    obtain ⟨rfl, hbehind⟩ := List.cons.inj h
    have hlength : p.sequence.length = 1 := by rw [hsequence, List.length_singleton]
    rw [decodeFrom]
    simp only [hannounce]
    rw [hcontinues.decodeFrom_front hbehind hback (by omega), hlength, Nat.add_sub_cancel,
      hsequence, List.singleton_append]

/-! ### The bytes of a text -/

/-- The bytes of some characters. -/
def encodeChars (cs : List Char) : Bytes :=
  cs.flatMap encodeChar

theorem encodeChars_cons (c : Char) (cs : List Char) :
    encodeChars (c :: cs) = encodeChar c ++ encodeChars cs := rfl

/-- The bytes of some characters are decoded to these characters, whatever follows. -/
theorem decodeFrom_encodeChars (cs : List Char) (rest : Bytes) (position : Nat) :
    decodeFrom position none (encodeChars cs ++ rest) =
      (decodeFrom (position + (encodeChars cs).length) none rest).prepend cs := by
  induction cs generalizing position with
  | nil => rfl
  | cons c cs ih =>
    rw [encodeChars_cons, List.append_assoc, decodeFrom_encodeChar, ih, List.length_append,
      Nat.add_assoc]
    rfl

theorem decode_encodeChars (cs : List Char) : decode (encodeChars cs) = ⟨cs, none⟩ := by
  have h := decodeFrom_encodeChars cs [] 0
  rw [List.append_nil] at h
  rw [decode, h, decodeFrom, Reading.prepend, List.append_nil]

/-- A text that was encoded is decoded again. -/
theorem decodeAll_encode (text : String) : decodeAll (encode text) = .ok text := by
  have hdecode : decode (encode text) = ⟨text.toList, none⟩ := decode_encodeChars text.toList
  rw [decodeAll, hdecode]
  simp

/-- Two texts differ in their bytes. -/
theorem encode_injective {text other : String} (h : encode text = encode other) : text = other := by
  have hdecoded := decodeAll_encode text
  rw [h, decodeAll_encode] at hdecoded
  exact (Except.ok.inj hdecoded).symm

/-- The bytes of some characters are cut between two characters or inside of one. -/
theorem exists_cut (h : front ++ back = encodeChars cs) :
    (∃ before after, before ++ after = cs ∧ front = encodeChars before ∧
      back = encodeChars after) ∨
      ∃ before c after start finish, before ++ c :: after = cs ∧
        (start ++ finish = encodeChar c ∧ start ≠ [] ∧ finish ≠ []) ∧
        front = encodeChars before ++ start ∧ back = finish ++ encodeChars after := by
  induction cs generalizing front with
  | nil =>
    obtain ⟨rfl, rfl⟩ := List.append_eq_nil_iff.1 h
    exact .inl ⟨[], [], rfl, rfl, rfl⟩
  | cons c cs ih =>
    rw [encodeChars_cons] at h
    rcases List.append_eq_append_iff.1 h with ⟨finish, hchar, rfl⟩ | ⟨more, rfl, hmore⟩
    · -- The cut is not behind the first character.
      by_cases hfront : front = []
      · subst hfront
        exact .inl ⟨[], c :: cs, rfl, rfl, by rw [encodeChars_cons, hchar, List.nil_append]⟩
      by_cases hfinish : finish = []
      · subst hfinish
        rw [List.append_nil] at hchar
        refine .inl ⟨[c], cs, rfl, ?_, rfl⟩
        rw [← hchar, encodeChars, List.flatMap_singleton]
      · exact .inr ⟨[], c, cs, front, finish, rfl, ⟨hchar.symm, hfront, hfinish⟩, rfl, rfl⟩
    · -- The first character is complete, and the cut is further behind.
      rcases ih hmore.symm with ⟨before, after, rfl, rfl, rfl⟩ |
        ⟨before, d, after, start, finish, rfl, hcut, rfl, rfl⟩
      · exact .inl ⟨c :: before, after, rfl, rfl, rfl⟩
      · refine .inr ⟨c :: before, d, after, start, finish, rfl, hcut, ?_, rfl⟩
        rw [encodeChars_cons, List.append_assoc]

end HackToolchain.Text.Utf8
