import HackToolchain.Failure
import HackToolchain.Proofs.Disassembly.Canonical

/-!
# Disassembly of lists of texts

A list of texts is disassembled in one pass. Blank texts are passed over and take no address, and the
pass ends when the count is used up, so what it yields depends on the selected texts only: those that
are not blank, cut to the count. Each of them is one entry, at addresses that follow one another, or
else the first that is no word is reported with its address.

The report shows the address. If the address has more digits than can be written, the disassembly
fails for this reason, and the word is not reported.
-/

namespace HackToolchain

open Text

namespace Disassembly

variable {symbols : SymbolMap} {start address : Int} {count : Option Int} {text : String}
variable {before after texts : List String} {entry : Entry} {entries : List Entry} {fault : Fault}

/-! ### One text -/

/-- The entry of a text has the given address, and the word without the blanks around it. -/
theorem entry_of_decodeWord (h : decodeWord symbols text address = .ok entry) :
    entry.address = address ∧ entry.word = trim text := by
  rw [decodeWord] at h
  split at h
  · simp at h
  · split at h
    · obtain rfl := Except.ok.inj h
      rw [addressEntry]
      split <;> exact ⟨rfl, rfl⟩
    · split at h
      · simp at h
      · split at h
        · obtain rfl := Except.ok.inj h
          exact ⟨rfl, rfl⟩
        · simp at h

/-- The fault of a text names the given address, and the text without the blanks around it. -/
theorem fault_of_decodeWord (h : decodeWord symbols text address = .error fault) :
    ∃ reason, fault = ⟨trim text, reason, some address⟩ := by
  rw [decodeWord] at h
  split at h
  · exact ⟨_, (Except.error.inj h).symm⟩
  · split at h
    · simp at h
    · split at h
      · exact ⟨_, (Except.error.inj h).symm⟩
      · split at h
        · simp at h
        · exact ⟨_, (Except.error.inj h).symm⟩

/-- A text that is no word has a fault. -/
theorem exists_decodeWord_error (symbols : SymbolMap) (address : Int)
    (h : ¬ Word.IsEmitted (trim text)) :
    ∃ reason, decodeWord symbols text address = .error ⟨trim text, reason, some address⟩ := by
  cases hdecode : decodeWord symbols text address with
  | ok entry => exact absurd ((exists_decodeWord_iff symbols text address).1 ⟨entry, hdecode⟩) h
  | error fault =>
    obtain ⟨reason, rfl⟩ := fault_of_decodeWord hdecode
    exact ⟨reason, rfl⟩

/-! ### Lists of texts -/

/-- The entries of some texts: one for each text in order, at addresses that follow one another. -/
structure AreEntries (symbols : SymbolMap) (start : Int) (texts : List String)
    (entries : List Entry) : Prop where
  words : entries.map (·.word) = texts.map trim
  addresses : entries.map (·.address) = (List.range texts.length).map fun i : Nat => start + i
  decoded : ∀ (i : Nat) text, texts[i]? = some text →
    ∃ entry, entries[i]? = some entry ∧ decodeWord symbols text (start + i) = .ok entry

theorem areEntries_nil : AreEntries symbols start [] [] where
  words := rfl
  addresses := rfl
  decoded := by simp

/-- One more text in front has its entry at the address before. -/
theorem AreEntries.cons (hentry : decodeWord symbols text start = .ok entry)
    (h : AreEntries symbols (start + 1) texts entries) :
    AreEntries symbols start (text :: texts) (entry :: entries) where
  words := by rw [List.map_cons, List.map_cons, h.words, (entry_of_decodeWord hentry).2]
  addresses := by
    rw [List.map_cons, h.addresses, (entry_of_decodeWord hentry).1, List.length_cons,
      List.range_succ_eq_map, List.map_cons, List.map_map]
    refine congrArg₂ List.cons (by simp) (List.map_congr_left fun i _ => ?_)
    simp only [Function.comp_apply]
    omega
  decoded := by
    intro i t ht
    cases i with
    | zero =>
      obtain rfl : text = t := by simpa using ht
      exact ⟨entry, rfl, by simpa using hentry⟩
    | succ i =>
      obtain ⟨e, he, hdecode⟩ := h.decoded i t (by simpa using ht)
      refine ⟨e, by simpa using he, ?_⟩
      rw [show start + ((i + 1 : Nat) : Int) = start + 1 + i by omega]
      exact hdecode

theorem areEntries_of_decodeFrom (h : decodeFrom symbols start texts = .ok entries) :
    AreEntries symbols start texts entries := by
  induction texts generalizing start entries with
  | nil =>
    obtain rfl := Except.ok.inj h
    exact areEntries_nil
  | cons text texts ih =>
    rw [decodeFrom] at h
    split at h
    · simp at h
    · next entry hentry =>
      split at h
      · simp at h
      · next behind hbehind =>
        obtain rfl := Except.ok.inj h
        exact (ih hbehind).cons hentry

/-- The first text that is not decoded ends the disassembly, whatever stands behind it. -/
theorem decodeFrom_append_cons (hbefore : ∀ t ∈ before, Word.IsEmitted (trim t))
    (h : decodeWord symbols text (start + before.length) = .error fault) (after : List String) :
    decodeFrom symbols start (before ++ text :: after) = .error fault := by
  -- The address moves on with the texts before.
  induction before generalizing start with
  | nil =>
    have hfirst : decodeWord symbols text start = .error fault := by simpa using h
    rw [List.nil_append, decodeFrom, hfirst]
  | cons t before ih =>
    obtain ⟨ht, hrest⟩ := List.forall_mem_cons.1 hbefore
    obtain ⟨entry, hentry⟩ := (exists_decodeWord_iff symbols t start).2 ht
    have hbehind : decodeFrom symbols (start + 1) (before ++ text :: after) = .error fault := by
      apply ih hrest
      rw [show start + 1 + (before.length : Int) = start + ((t :: before).length : Nat) by
        rw [List.length_cons]; omega]
      exact h
    rw [List.cons_append, decodeFrom, hentry, hbehind]

/-- Texts behind as many as are counted are not selected. -/
theorem selected_append_of_le {n : Int}
    (h : n ≤ (texts.filter fun text => !isAllBlank text).length) (more : List String) :
    selected (some n) (texts ++ more) = selected (some n) texts := by
  simp only [selected, List.filter_append]
  exact List.take_append_of_le_length (by omega)

end Disassembly

open Disassembly

/-- The failure of a text that is not decoded: it is reported, if its address can be written. -/
theorem Failure.ofDisassembly_eq (word : String) (reason : Reason) (address : Int) :
    ofDisassembly ⟨word, reason, some address⟩ =
      if Numeral.isWritable address then .undecodableWord ⟨word, reason, some address⟩
      else .unwritable .longNumber := by
  by_cases h : Numeral.isWritable address = true <;> simp [ofDisassembly, numberObstacle?, h]

theorem disassemble_eq (symbols : SymbolMap) (start : Int) (count : Option Int)
    (texts : List String) : disassemble symbols start count texts =
      (decodeFrom symbols start (selected count texts)).mapError Failure.ofDisassembly := by
  rw [disassemble, decodeWords_eq_decodeFrom]

/-- The disassembly of a list of texts. If the texts that are not blank, cut to the count, are all
words that the assembler emits, there is one entry for each of them, at addresses that follow one
another. Otherwise the first that is none is reported with its address, or the address cannot be
written. Nothing that stands behind the count is looked at. -/
theorem disassemble_selected (symbols : SymbolMap) (start : Int) (count : Option Int)
    (texts : List String) :
    ((∀ text ∈ selected count texts, Word.IsEmitted (trim text)) →
      ∃ entries, disassemble symbols start count texts = .ok entries ∧
        AreEntries symbols start (selected count texts) entries) ∧
    (∀ before text after, selected count texts = before ++ text :: after →
      (∀ t ∈ before, Word.IsEmitted (trim t)) → ¬ Word.IsEmitted (trim text) →
      let address := start + before.length
      ∃ reason, decodeWord symbols text address = .error ⟨trim text, reason, some address⟩ ∧
        disassemble symbols start count texts =
          .error (if Numeral.isWritable address then
              .undecodableWord ⟨trim text, reason, some address⟩
            else .unwritable .longNumber)) ∧
    ∀ n, count = some n → n ≤ (texts.filter fun text => !isAllBlank text).length →
      ∀ more, disassemble symbols start count (texts ++ more) =
        disassemble symbols start count texts := by
  simp only [disassemble_eq]
  refine ⟨fun hwords => ?_, fun before text after hsplit hbefore htext => ?_, ?_⟩
  · obtain ⟨entries, hentries⟩ := (exists_decodeFrom_iff symbols start).2 hwords
    exact ⟨entries, by rw [hentries]; rfl, areEntries_of_decodeFrom hentries⟩
  · obtain ⟨reason, hreason⟩ := exists_decodeWord_error symbols (start + before.length) htext
    refine ⟨reason, hreason, ?_⟩
    rw [hsplit, decodeFrom_append_cons hbefore hreason, ← Failure.ofDisassembly_eq]
    rfl
  · rintro n rfl hn more
    rw [selected_append_of_le hn]

/-- Two words and a blank line before a line that is no word. -/
def remarkedLines : List String :=
  [" 0000000000010000", "\t", "1110110000010000\r", "end of program"]

/-- With a count of two the last line is not looked at; without one it has the third address. -/
theorem disassemble_selected_remarkedLines :
    disassemble [(16, "x")] 100 (some 2) remarkedLines =
      .ok [⟨100, "0000000000010000", "@x", "16"⟩, ⟨101, "1110110000010000", "D=A", ""⟩] ∧
    disassemble [(16, "x")] 100 (some 2) (remarkedLines ++ ["1"]) =
      disassemble [(16, "x")] 100 (some 2) remarkedLines ∧
    disassemble [(16, "x")] 100 none remarkedLines =
      .error (.undecodableWord ⟨"end of program", .notWord, some 102⟩) := by
  have hcounted : disassemble [(16, "x")] 100 (some 2) remarkedLines =
      .ok [⟨100, "0000000000010000", "@x", "16"⟩, ⟨101, "1110110000010000", "D=A", ""⟩] := by
    decide +kernel
  obtain ⟨-, -, hbeyond⟩ := disassemble_selected [(16, "x")] 100 (some 2) remarkedLines
  obtain ⟨-, hfault, -⟩ := disassemble_selected [(16, "x")] 100 none remarkedLines
  refine ⟨hcounted, hbeyond 2 rfl (by decide) ["1"], ?_⟩
  have hsplit : selected none remarkedLines =
      [" 0000000000010000", "1110110000010000\r"] ++ "end of program" :: [] := by decide +kernel
  have hbefore : ∀ t ∈ [" 0000000000010000", "1110110000010000\r"], Word.IsEmitted (trim t) := by
    simp only [← exists_decodeWord_iff [] _ 0, List.forall_mem_cons]
    exact ⟨⟨⟨0, "0000000000010000", "@16", ""⟩, by decide +kernel⟩,
      ⟨⟨0, "1110110000010000", "D=A", ""⟩, by decide +kernel⟩, List.forall_mem_nil _⟩
  have hdecode : decodeWord [(16, "x")] "end of program" 102 =
      .error ⟨"end of program", .notWord, some 102⟩ := by decide +kernel
  have hlast : ¬ Word.IsEmitted (trim "end of program") := by
    intro hword
    obtain ⟨entry, hentry⟩ := (exists_decodeWord_iff [(16, "x")] "end of program" 102).2 hword
    rw [hdecode] at hentry
    simp at hentry
  obtain ⟨reason, hreason, hreported⟩ := hfault _ _ _ hsplit hbefore hlast
  obtain ⟨-, rfl⟩ : "end of program" = trim "end of program" ∧ Reason.notWord = reason := by
    simpa using hdecode.symm.trans hreason
  exact hreported

/-- The second word is no word, but its address has more digits than can be written. -/
theorem disassemble_beyond_digits :
    disassemble [] (10 ^ Numeral.digitLimit - 1) none ["0000000000000000", "x"] =
      .error (.unwritable .longNumber) ∧
    decodeWord [] "x" (10 ^ Numeral.digitLimit) =
      .error ⟨"x", .notWord, some (10 ^ Numeral.digitLimit)⟩ := by
  have hfault (address : Int) :
      decodeWord [] "x" address = .error ⟨"x", .notWord, some address⟩ := rfl
  have hzero : ∀ t ∈ ["0000000000000000"], Word.IsEmitted (trim t) := by
    simp only [← exists_decodeWord_iff [] _ 0, List.forall_mem_singleton]
    exact ⟨⟨0, "0000000000000000", "@0", ""⟩, by decide +kernel⟩
  have hselected : selected none ["0000000000000000", "x"] =
      ["0000000000000000"] ++ "x" :: [] := by decide +kernel
  -- Nothing matters about the second address but that it cannot be written.
  have hbroken (address : Int) (hlong : ¬ Numeral.isWritable address = true) :
      disassemble [] (address - 1) none ["0000000000000000", "x"] =
        .error (.unwritable .longNumber) := by
    have hindex : address - 1 + (["0000000000000000"].length : Nat) = address :=
      Int.sub_add_cancel address 1
    have hdecoded : decodeFrom [] (address - 1) (["0000000000000000"] ++ "x" :: []) =
        .error ⟨"x", .notWord, some address⟩ := by
      apply decodeFrom_append_cons hzero
      rw [hindex]
      exact hfault address
    rw [disassemble_eq, hselected, hdecoded]
    exact congrArg Except.error ((Failure.ofDisassembly_eq _ _ _).trans (if_neg hlong))
  exact ⟨hbroken _ (Numeral.isWritable_pow_iff.not.2 (Nat.lt_irrefl _)), hfault _⟩

end HackToolchain
