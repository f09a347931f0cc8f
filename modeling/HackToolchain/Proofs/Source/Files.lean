import HackToolchain.Proofs.Text.Decoding
import HackToolchain.Proofs.Text.Layout
import HackToolchain.Source.Statement
import Mathlib.Tactic.ByContra

/-!
# The lines of a file and of a text

Wherever a block of a file ends, the bytes of a text are decoded to the text: a character that is cut
off waits for the next block. So a file yields the text that it holds, cut at carriage returns and
line feeds. A text held in memory is cut at further characters, and both have the same lines if and
only if the text has none of these.
-/

namespace HackToolchain

open Text Text.Utf8

variable {cs : List Char} {c : Char} {left : Bytes} {blocks : List Bytes}
variable {isBreak isBreak' : Char → Bool} {s : String} {n : Nat}

/-! ### Blocks -/

/-- Blocks that hold the bytes of some characters are decoded to these characters, wherever the
blocks end. -/
theorem decodeBlocks_eq (h : left ++ blocks.flatten = encodeChars cs) :
    decodeBlocks left blocks = ⟨cs, none⟩ := by
  -- The bytes that wait and the blocks that follow always hold the characters to come.
  induction blocks generalizing left cs with
  | nil =>
    rw [List.flatten_nil, List.append_nil] at h
    rw [decodeBlocks, h, decode_encodeChars]
  | cons block blocks ih =>
    rw [List.flatten_cons, ← List.append_assoc] at h
    rw [decodeBlocks]
    rcases exists_cut h with ⟨before, after, rfl, hfront, hback⟩ |
      ⟨before, c, after, start, finish, rfl, ⟨hchar, hstart, hfinish⟩, hfront, hback⟩
    · -- The block ends between two characters, and nothing waits.
      rw [hfront, decode_encodeChars]
      simp only
      rw [ih hback]
      rfl
    · -- The block ends inside a character, whose first bytes wait.
      have hreading : decode (encodeChars before ++ start) =
          ⟨before, some ⟨start, (encodeChars before).length, .unexpectedEnd⟩⟩ := by
        rw [decode, decodeFrom_encodeChars, decodeFrom_front hchar hstart hfinish, Nat.zero_add,
          Reading.prepend, List.append_nil]
      have hwaiting : leftOver (encodeChars before ++ start)
          ⟨start, (encodeChars before).length, .unexpectedEnd⟩ = some start := by
        rw [leftOver, List.drop_left, if_pos (.inl rfl)]
      have hrest : start ++ blocks.flatten = encodeChars (c :: after) := by
        rw [hback, ← List.append_assoc, hchar]
        rfl
      rw [hfront, hreading]
      simp only [hwaiting]
      rw [ih hrest]
      rfl

theorem flatten_map_range (bytes : Bytes) (n : Nat) :
    ((List.range n).map fun i => (bytes.drop (i * blockSize)).take blockSize).flatten =
      bytes.take (n * blockSize) := by
  induction n with
  | zero => rw [List.range_zero, Nat.zero_mul, List.take_zero]; rfl
  | succ n ih =>
    rw [List.range_succ, List.map_append, List.flatten_append, ih, Nat.succ_mul, List.take_add]
    simp only [List.map_cons, List.map_nil, List.flatten_cons, List.flatten_nil, List.append_nil]

theorem flatten_blocksOf (bytes : Bytes) : (blocksOf bytes).flatten = bytes := by
  rw [blocksOf, flatten_map_range]
  refine List.take_of_length_le ?_
  have hdiv := Nat.div_add_mod bytes.length blockSize
  have hmod := Nat.mod_lt bytes.length (show 0 < blockSize by decide)
  rw [Nat.succ_mul, Nat.mul_comm]
  omega

/-- A file that holds a text yields its lines, and no fault. -/
theorem SourceFile.ofBytes_encode (s : String) :
    SourceFile.ofBytes (encode s) = ⟨fileLines s.toList, none⟩ := by
  have hblocks : [] ++ (blocksOf (encode s)).flatten = encodeChars s.toList := by
    rw [flatten_blocksOf, List.nil_append]
    rfl
  rw [ofBytes, decodeBlocks_eq hblocks]
  rfl

/-! ### Lines -/

namespace Text

/-- The characters that end a line in memory but not in a file. -/
def breaksTextOnly (c : Char) : Bool :=
  isLineBreak c && !isFileBreak c

theorem isLineBreak_of_isFileBreak (h : isFileBreak c = true) : isLineBreak c = true := by
  rw [isFileBreak, Bool.or_eq_true, beq_iff_eq, beq_iff_eq] at h
  rcases h with rfl | rfl <;> rfl

theorem isFileBreak_of_isLineBreak_eq_false (h : isLineBreak c = false) :
    isFileBreak c = false := by
  by_contra hbreak
  rw [isLineBreak_of_isFileBreak (by simpa using hbreak)] at h
  exact Bool.false_ne_true h.symm

theorem breaksTextOnly_eq_false_iff :
    breaksTextOnly c = false ↔ isLineBreak c = isFileBreak c := by
  rw [breaksTextOnly]
  cases hfile : isFileBreak c with
  | true => simp [isLineBreak_of_isFileBreak hfile]
  | false => simp

/-- Where two sets of breaks agree on all characters, they cut the same lines. -/
theorem splitLines_congr (h : ∀ c ∈ cs, isBreak c = isBreak' c) :
    splitLines isBreak cs = splitLines isBreak' cs := by
  fun_induction splitLines isBreak cs with
  | case1 => rfl
  | case2 cs ih =>
    rw [splitLines, ih fun d hd => h d (by simp [hd])]
  | case3 c cs hpair hb ih =>
    rw [splitLines_cons hpair, ← h c List.mem_cons_self, if_pos hb,
      ih fun d hd => h d (List.mem_cons_of_mem c hd)]
  | case4 c cs hpair hb hs ih =>
    rw [splitLines_cons hpair, ← h c List.mem_cons_self, if_neg hb,
      ← ih fun d hd => h d (List.mem_cons_of_mem c hd), hs]
  | case5 c cs hpair hb line rest hs ih =>
    rw [splitLines_cons hpair, ← h c List.mem_cons_self, if_neg hb,
      ← ih fun d hd => h d (List.mem_cons_of_mem c hd), hs]

/-- The characters of the lines are those of the text that are no breaks. -/
theorem mem_flatten_splitLines (hr : isBreak '\r' = true) (hn : isBreak '\n' = true) :
    c ∈ (splitLines isBreak cs).flatten ↔ c ∈ cs ∧ isBreak c = false := by
  fun_induction splitLines isBreak cs with
  | case1 => simp
  | case2 cs ih =>
    rw [List.flatten_cons, List.nil_append, ih, List.mem_cons, List.mem_cons]
    constructor
    · rintro ⟨hmem, hc⟩
      exact ⟨.inr (.inr hmem), hc⟩
    · rintro ⟨rfl | rfl | hmem, hc⟩
      · simp [hr] at hc
      · simp [hn] at hc
      · exact ⟨hmem, hc⟩
  | case3 d cs _ hb ih =>
    rw [List.flatten_cons, List.nil_append, ih, List.mem_cons]
    constructor
    · rintro ⟨hmem, hc⟩
      exact ⟨.inr hmem, hc⟩
    · rintro ⟨rfl | hmem, hc⟩
      · simp [hb] at hc
      · exact ⟨hmem, hc⟩
  | case4 d cs _ hb hs ih =>
    rw [hs] at ih
    constructor
    · intro hmem
      obtain rfl : c = d := by simpa using hmem
      exact ⟨List.mem_cons_self, by simpa using hb⟩
    · rintro ⟨hmem, hc⟩
      rcases List.mem_cons.1 hmem with rfl | hmem
      · exact List.mem_singleton.2 rfl
      · exact absurd (ih.2 ⟨hmem, hc⟩) List.not_mem_nil
  | case5 d cs _ hb line rest hs ih =>
    rw [hs] at ih
    have hflatten : ((d :: line) :: rest).flatten = d :: (line :: rest).flatten := rfl
    rw [hflatten, List.mem_cons, List.mem_cons, ih]
    constructor
    · rintro (rfl | ⟨hmem, hc⟩)
      · exact ⟨.inl rfl, by simpa using hb⟩
      · exact ⟨.inr hmem, hc⟩
    · rintro ⟨rfl | hmem, hc⟩
      · exact .inl rfl
      · exact .inr ⟨hmem, hc⟩

/-- A text and a file that holds it have the same lines if and only if no character of the text ends
a line in memory only. -/
theorem lines_eq_fileLines_iff :
    lines s = fileLines s.toList ↔ ∀ c ∈ s.toList, breaksTextOnly c = false := by
  rw [lines, fileLines]
  constructor
  · intro h c hc
    -- Equal lines hold the same characters, and only breaks are lost.
    have hsplit : splitLines isLineBreak s.toList = splitLines isFileBreak s.toList :=
      (List.map_inj_right fun _ _ => String.ofList_inj.1).1 h
    have hmem : c ∈ (splitLines isLineBreak s.toList).flatten ↔
        c ∈ (splitLines isFileBreak s.toList).flatten := by rw [hsplit]
    rw [mem_flatten_splitLines rfl rfl, mem_flatten_splitLines rfl rfl] at hmem
    simp only [hc, true_and] at hmem
    rw [breaksTextOnly_eq_false_iff]
    cases hfile : isFileBreak c with
    | true => exact isLineBreak_of_isFileBreak hfile
    | false => exact hmem.2 hfile
  · intro h
    rw [splitLines_congr fun c hc => breaksTextOnly_eq_false_iff.1 (h c hc)]

end Text

end HackToolchain
