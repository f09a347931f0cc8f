import HackToolchain.Instruction.Word
import HackToolchain.Text.Blank

/-!
# Disassembly

A word of 16 binary digits is turned back into the text of an instruction. An address is printed as
a decimal number, or as the name that a map of symbols gives it, with the number as comment.

In a list of words the texts of blanks only are passed over; they take no address and do not count.
-/

namespace HackToolchain

/-- Names for addresses; the first name of an address counts. -/
abbrev SymbolMap := List (Int × String)

namespace Disassembly

/-- Why a text is not disassembled. -/
inductive Reason where
  /-- It does not consist of as many binary digits as a word has. -/
  | notWord
  /-- It loads no address and does not begin as a compute instruction does. -/
  | notCompute
  /-- Its fields cannot be decoded. -/
  | fields (fault : Fields.DecodeFault)
  /-- A reason that a caller gives in its own words. -/
  | described (text : String)
  deriving DecidableEq

/-- The wording of a reason. -/
def Reason.text : Reason → String
  | notWord => "expected 16 binary digits"
  | notCompute => "compute instructions must start with 111"
  | fields fault => fault.message
  | described text => text

/-- A text that is not disassembled, with its address if one is known. -/
structure Fault where
  word : String
  reason : Reason
  index : Option Int
  deriving DecidableEq

/-- The wording of a fault. -/
def Fault.message (f : Fault) : String :=
  let place :=
    match f.index with
    | some index => "word " ++ toString index ++ ": "
    | none => ""
  place ++ "cannot decode '" ++ f.word ++ "': " ++ f.reason.text

/-- A disassembled word: its address, the word, the text of the instruction and a comment. -/
structure Entry where
  address : Int
  word : String
  text : String
  comment : String
  deriving DecidableEq

namespace Entry

/-- The width of the column of addresses. -/
def addressWidth : Nat := 5

/-- The width of the column of instructions before a comment. -/
def textWidth : Nat := 16

/-- The line of an entry in a listing. -/
def line (e : Entry) : String :=
  let head := Text.alignRight addressWidth (toString e.address) ++ ": " ++ e.word ++ "  "
  if e.comment.isEmpty then head ++ e.text
  else head ++ Text.alignLeft textWidth e.text ++ " // " ++ e.comment

/-- Whether the word loads an address; unknown of an empty word. -/
def loadsAddress? (e : Entry) : Option Bool :=
  e.word.toList.head?.map (· == '0')

end Entry

/-- A text of as many binary digits as a word has. -/
def isWord (word : String) : Bool :=
  word.toList.length == Machine.wordLength && word.toList.all fun c => c == '0' || c == '1'

/-- The entry of a word that loads an address. -/
def addressEntry (symbols : SymbolMap) (word : String) (address : Int) : Entry :=
  let value := Nat.ofDigitChars 2 word.toList 0
  match symbols.lookup (value : Int) with
  | some name => ⟨address, word, "@" ++ name, toString value⟩
  | none => ⟨address, word, "@" ++ toString value, ""⟩

/-- The entry of a text, which may be surrounded by blanks. -/
def decodeWord (symbols : SymbolMap) (text : String) (address : Int) : Except Fault Entry :=
  let word := Text.trim text
  -- The first digit tells the two kinds of word apart.
  if !isWord word then .error ⟨word, .notWord, some address⟩
  else if word.toList.head? = some '0' then .ok (addressEntry symbols word address)
  else if word.toList.take 3 ≠ computeHead.toList then .error ⟨word, .notCompute, some address⟩
  else match Fields.decode word with
    | .ok fields => .ok ⟨address, word, fields.text, ""⟩
    | .error fault => .error ⟨word, .fields fault, some address⟩

/-- The entries of a list of texts of which the first has the given address. Texts of blanks only are
passed over; once the count is used up, nothing more is looked at. The first undecodable text is
reported. -/
def decodeWords (symbols : SymbolMap) (start : Int) (count : Option Int) :
    List String → Except Fault (List Entry)
  | [] => .ok []
  | text :: rest =>
    if count.any (· ≤ 0) then .ok []
    else if Text.isAllBlank text then decodeWords symbols start count rest
    else
      match decodeWord symbols text start with
      | .error fault => .error fault
      | .ok entry =>
        match decodeWords symbols (start + 1) (count.map (· - 1)) rest with
        | .error fault => .error fault
        | .ok entries => .ok (entry :: entries)

/-- The text that assembles to the words, one instruction a line. -/
def sourceText (symbols : SymbolMap) (texts : List String) : Except Fault String :=
  (decodeWords symbols 0 none texts).map fun entries =>
    Text.joinLines (entries.map (·.text)) ++ "\n"

/-! ### The texts that are disassembled -/

/-- The entries of texts none of which is passed over. The first text has the given address. -/
def decodeFrom (symbols : SymbolMap) : Int → List String → Except Fault (List Entry)
  | _, [] => .ok []
  | address, text :: rest =>
    match decodeWord symbols text address with
    | .error fault => .error fault
    | .ok entry =>
      match decodeFrom symbols (address + 1) rest with
      | .error fault => .error fault
      | .ok entries => .ok (entry :: entries)

/-- The texts that are disassembled: those that are not blank, and no more of them than the count.
-/
def selected (count : Option Int) (texts : List String) : List String :=
  let written := texts.filter fun text => !Text.isAllBlank text
  match count with
  | some count => written.take count.toNat
  | none => written

theorem selected_nil (count : Option Int) : selected count [] = [] := by
  cases count <;> simp [selected]

theorem selected_cons_of_isAllBlank {text : String} (count : Option Int) (rest : List String)
    (h : Text.isAllBlank text = true) : selected count (text :: rest) = selected count rest := by
  simp [selected, h]

/-- A text that is not blank is selected unless the count is used up, and counts. -/
theorem selected_cons_of_not_isAllBlank {text : String} {count : Option Int} (rest : List String)
    (h : Text.isAllBlank text = false) (hcount : count.any (· ≤ 0) = false) :
    selected count (text :: rest) = text :: selected (count.map (· - 1)) rest := by
  cases count with
  | none => simp [selected, h]
  | some n =>
    have hsucc : n.toNat = (n - 1).toNat + 1 := by
      simp only [Option.any_some, decide_eq_false_iff_not] at hcount
      omega
    simp only [selected, List.filter_cons, h, Bool.not_false, if_true, Option.map_some]
    rw [hsucc, List.take_succ_cons]

theorem selected_of_any {count : Option Int} (texts : List String)
    (h : count.any (· ≤ 0) = true) : selected count texts = [] := by
  cases count with
  | none => simp at h
  | some n =>
    have hzero : n.toNat = 0 := by
      simp only [Option.any_some, decide_eq_true_eq] at h
      omega
    simp [selected, hzero]

/-- One pass over a list of texts decodes those that are selected. -/
theorem decodeWords_eq_decodeFrom (symbols : SymbolMap) (start : Int) (count : Option Int)
    (texts : List String) :
    decodeWords symbols start count texts = decodeFrom symbols start (selected count texts) := by
  -- The address and what is left of the count move on with every text that is decoded.
  induction texts generalizing start count with
  | nil => rw [selected_nil, decodeWords, decodeFrom]
  | cons text rest ih =>
    rw [decodeWords]
    cases hcount : count.any (· ≤ 0) with
    | true =>
      rw [selected_of_any _ hcount, decodeFrom, if_pos rfl]
    | false =>
      cases hblank : Text.isAllBlank text with
      | true =>
        rw [selected_cons_of_isAllBlank _ _ hblank, ← ih, if_neg Bool.false_ne_true, if_pos rfl]
      | false =>
        rw [selected_cons_of_not_isAllBlank _ hblank hcount, decodeFrom, ih (start + 1),
          if_neg Bool.false_ne_true, if_neg Bool.false_ne_true]

end Disassembly

end HackToolchain
