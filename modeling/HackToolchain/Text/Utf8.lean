/-!
# UTF-8

A character is encoded in one to four bytes. Decoding is strict: overlong forms, surrogates and
values above `U+10FFFF` are refused, and the fault names the longest part of the bad sequence that
could begin a character.

The decoder is a machine that reads one byte at a time. Between characters it waits for a first
byte; inside a character it knows the bits read so far, how many bytes are to follow, and the range
in which the next byte has to lie.
-/

namespace HackToolchain.Text.Utf8

/-- A sequence of bytes. -/
abbrev Bytes := List UInt8

/-- The bytes of one character. -/
def encodeChar (c : Char) : Bytes :=
  let n := c.toNat
  if n < 0x80 then [.ofNat n]
  else if n < 0x800 then [.ofNat (0xC0 + n / 0x40), .ofNat (0x80 + n % 0x40)]
  else if n < 0x10000 then
    [.ofNat (0xE0 + n / 0x1000), .ofNat (0x80 + n / 0x40 % 0x40), .ofNat (0x80 + n % 0x40)]
  else
    [.ofNat (0xF0 + n / 0x40000), .ofNat (0x80 + n / 0x1000 % 0x40),
      .ofNat (0x80 + n / 0x40 % 0x40), .ofNat (0x80 + n % 0x40)]

/-- The bytes of a text. -/
def encode (s : String) : Bytes :=
  s.toList.flatMap encodeChar

/-- What is wrong with an undecodable sequence. -/
inductive Problem where
  /-- No character begins with this byte. -/
  | invalidStart
  /-- The byte behind the sequence does not continue it. -/
  | invalidContinuation
  /-- The bytes end inside a character. -/
  | unexpectedEnd
  deriving DecidableEq

/-- An undecodable sequence: its bytes, the number of bytes before it, and what is wrong. -/
structure Fault where
  sequence : Bytes
  position : Nat
  problem : Problem
  deriving DecidableEq

/-- The character that is being read: its bytes so far, the bits they carry, the number of bytes to
follow, and the range of the next byte. -/
structure Pending where
  sequence : Bytes
  bits : Nat
  remaining : Nat
  least : Nat
  greatest : Nat

/-- What a first byte announces: a complete character, the bytes to follow, or nothing. -/
def announce (b : UInt8) : Option (Char ⊕ Pending) :=
  let n := b.toNat
  if n < 0x80 then some (.inl (Char.ofNat n))
  else if n < 0xC2 then none
  else if n < 0xE0 then some (.inr ⟨[b], n - 0xC0, 1, 0x80, 0xBF⟩)
  else if n == 0xE0 then some (.inr ⟨[b], 0, 2, 0xA0, 0xBF⟩)
  else if n == 0xED then some (.inr ⟨[b], 0xD, 2, 0x80, 0x9F⟩)
  else if n < 0xF0 then some (.inr ⟨[b], n - 0xE0, 2, 0x80, 0xBF⟩)
  else if n == 0xF0 then some (.inr ⟨[b], 0, 3, 0x90, 0xBF⟩)
  else if n < 0xF4 then some (.inr ⟨[b], n - 0xF0, 3, 0x80, 0xBF⟩)
  else if n == 0xF4 then some (.inr ⟨[b], 4, 3, 0x80, 0x8F⟩)
  else none

/-- The decoded characters, and the fault that ended them if there is one. -/
structure Reading where
  chars : List Char
  fault : Option Fault
  deriving DecidableEq

/-- A reading with one more character in front. -/
def Reading.cons (c : Char) (r : Reading) : Reading :=
  { r with chars := c :: r.chars }

/-- A reading with more characters in front. -/
def Reading.prepend (r : Reading) (cs : List Char) : Reading :=
  { r with chars := cs ++ r.chars }

/-- Decodes from a state of the machine; `position` is the number of bytes read. -/
def decodeFrom (position : Nat) (state : Option Pending) : Bytes → Reading
  | [] =>
    match state with
    | none => ⟨[], none⟩
    | some p => ⟨[], some ⟨p.sequence, position - p.sequence.length, .unexpectedEnd⟩⟩
  | b :: bs =>
    match state with
    | none =>
      match announce b with
      | none => ⟨[], some ⟨[b], position, .invalidStart⟩⟩
      | some (.inl c) => (decodeFrom (position + 1) none bs).cons c
      | some (.inr p) => decodeFrom (position + 1) (some p) bs
    | some p =>
      if p.least ≤ b.toNat ∧ b.toNat ≤ p.greatest then
        let bits := p.bits * 0x40 + (b.toNat - 0x80)
        if p.remaining ≤ 1 then (decodeFrom (position + 1) none bs).cons (Char.ofNat bits)
        else
          -- Only the second byte of a character has a range of its own.
          let longer := ⟨p.sequence ++ [b], bits, p.remaining - 1, 0x80, 0xBF⟩
          decodeFrom (position + 1) (some longer) bs
      else ⟨[], some ⟨p.sequence, position - p.sequence.length, .invalidContinuation⟩⟩

/-- Decodes a list of bytes. -/
def decode (bytes : Bytes) : Reading :=
  decodeFrom 0 none bytes

/-- The text of a list of bytes that is read as a whole. -/
def decodeAll (bytes : Bytes) : Except Fault String :=
  match decode bytes with
  | ⟨chars, none⟩ => .ok (String.ofList chars)
  | ⟨_, some fault⟩ => .error fault

/-- A byte as messages write it. -/
def byteText (b : UInt8) : String :=
  "0x" ++ String.ofList ((Nat.toDigits 16 b.toNat).leftpad 2 '0')

/-- The wording of a problem. -/
def Problem.text : Problem → String
  | .invalidStart => "invalid start byte"
  | .invalidContinuation => "invalid continuation byte"
  | .unexpectedEnd => "unexpected end of data"

/-- The wording of a fault: a single byte is shown, of several only the positions. -/
def Fault.message (f : Fault) : String :=
  let subject :=
    match f.sequence with
    | [b] => "byte " ++ byteText b ++ " in position " ++ toString f.position
    | bs => "bytes in position " ++ toString f.position ++ "-" ++
        toString (f.position + bs.length - 1)
  "'utf-8' codec can't decode " ++ subject ++ ": " ++ f.problem.text

end HackToolchain.Text.Utf8
