import HackToolchain.Diagnostic
import HackToolchain.Instruction.Fields
import HackToolchain.Machine
import HackToolchain.Text.Quoted
import HackToolchain.Text.Similarity

/-!
# Machine words

A word is written as a text of binary digits. An address is written in base two with leading zeros
up to the length of a word; a compute instruction is `111` followed by the bits of the computation,
of the destination and of the jump.
-/

namespace HackToolchain

/-- A machine word, written in binary digits. -/
abbrev Word := String

namespace Word

/-- A number in base two, with leading zeros up to the length of a word. -/
def ofNat (n : Nat) : Word :=
  String.ofList ((Nat.toDigits 2 n).leftpad Machine.wordLength '0')

/-- The largest address that is accepted; without a limit, what fits in a word. -/
def addressLimit (limit : Option Int) : Int :=
  limit.getD Machine.wordMax

/-- The word that loads an address. -/
def ofAddress (address : Int) (limit : Option Int) : Except Cause Word :=
  if 0 ≤ address ∧ address ≤ addressLimit limit then .ok (ofNat address.toNat)
  else .error (.addressRange address (addressLimit limit))

end Word

/-- The bits of a mnemonic in its field. -/
def Field.encode (f : Field) (mnemonic : String) : Except Cause String :=
  match f.table.code? mnemonic with
  | some bits => .ok bits
  | none =>
    .error (.unknownMnemonic f.name mnemonic (Text.similar (f.table.map Prod.fst) mnemonic))

/-- The digits with which a compute word begins. -/
def computeHead : String := "111"

namespace Fields

/-- The word of a compute instruction. The computation is encoded first, then the destination and
the jump, so the first unknown mnemonic in this order is reported. -/
def encode (f : Fields) : Except Cause Word := do
  let comp ← Field.comp.encode f.comp
  let dest ← Field.dest.encode (f.dest.getD nullMnemonic)
  let jump ← Field.jump.encode (f.jump.getD nullMnemonic)
  return computeHead ++ comp ++ dest ++ jump

/-- Why a text is not decoded as a compute word. -/
inductive DecodeFault where
  /-- It has another length or another beginning. -/
  | notCompute (word : String)
  /-- Some of its bits belong to no mnemonic. -/
  | unknownEncoding (word : String)
  deriving DecidableEq

/-- The wording of a fault. -/
def DecodeFault.message : DecodeFault → String
  | notCompute word => "not a compute instruction: " ++ Text.quote word
  | unknownEncoding word => "unknown field encoding in " ++ Text.quote word

/-- The characters of a text from one index up to another. -/
def slice (cs : List Char) (start stop : Nat) : String :=
  String.ofList ((cs.take stop).drop start)

/-- A mnemonic that may be left out: `null` is. -/
def optional (mnemonic : String) : Option String :=
  if mnemonic = nullMnemonic then none else some mnemonic

/-- The fields of a compute word. -/
def decode (word : String) : Except DecodeFault Fields :=
  let cs := word.toList
  if cs.length ≠ Machine.wordLength ∨ cs.take 3 ≠ computeHead.toList then
    .error (.notCompute word)
  else
    match Field.comp.table.mnemonic? (slice cs 3 10), Field.dest.table.mnemonic? (slice cs 10 13),
      Field.jump.table.mnemonic? (slice cs 13 16) with
    | some comp, some dest, some jump => .ok ⟨optional dest, comp, optional jump, 1, 0⟩
    | _, _, _ => .error (.unknownEncoding word)

end Fields

end HackToolchain
