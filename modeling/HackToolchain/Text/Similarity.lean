/-!
# Similarity of texts

Two texts are compared by the characters they share in order. The longest block that occurs in both
is matched first, the earliest in the first text and then in the second if several are as long, and
the parts to its left and to its right are matched in the same way. The ratio of twice the matched
characters to all characters says how similar the texts are.
-/

namespace HackToolchain.Text

/-- The length of the longest common beginning of two lists. -/
def commonLength : List Char → List Char → Nat
  | a :: as, b :: bs => if a = b then commonLength as bs + 1 else 0
  | _, _ => 0

/-- A block of `length` characters at the given offsets of two lists. -/
structure Block where
  first : Nat
  second : Nat
  length : Nat

/-- The better of two blocks; of equally long ones the earlier argument. -/
def Block.longer (b c : Block) : Block :=
  if b.length < c.length then c else b

/-- The common blocks that begin with `as`, which stands at the offset `first`, and with an end of
`bs`, which stands at the offset `second`. -/
def blocksAt (as : List Char) (first second : Nat) : List Char → List Block
  | [] => []
  | b :: bs => ⟨first, second, commonLength as (b :: bs)⟩ :: blocksAt as first (second + 1) bs

/-- The common blocks of an end of the first list, which stands at the offset `first`, and the
second list, in the order of the first and then of the second offset. -/
def blocksFrom (first : Nat) (bs : List Char) : List Char → List Block
  | [] => []
  | a :: as => blocksAt (a :: as) first 0 bs ++ blocksFrom (first + 1) bs as

/-- The longest common block, the earliest of several. -/
def longestBlock (as bs : List Char) : Block :=
  (blocksFrom 0 bs as).foldl Block.longer ⟨0, 0, 0⟩

/-- The number of characters matched in at most `depth` nested matches. -/
def matchedWithin : Nat → List Char → List Char → Nat
  | 0, _, _ => 0
  | depth + 1, as, bs =>
    let block := longestBlock as bs
    if block.length = 0 then 0
    else
      -- Matches do not cross: what is before the block in one list stays before it in the other.
      block.length + matchedWithin depth (as.take block.first) (bs.take block.second) +
        matchedWithin depth (as.drop (block.first + block.length))
          (bs.drop (block.second + block.length))

/-- The number of matched characters. A match takes a character from the first text, so no match is
nested deeper than its length. -/
def matched (as bs : List Char) : Nat :=
  matchedWithin as.length as bs

/-- A name of a list and how similar it is to a word: twice the matched characters over all
characters. -/
structure Candidate where
  name : String
  shared : Nat
  total : Nat

/-- The comparison of a name with a word. -/
def Candidate.of (word name : String) : Candidate :=
  ⟨name, matched name.toList word.toList, name.toList.length + word.toList.length⟩

/-- A ratio of at least three fifths. -/
def Candidate.isClose (c : Candidate) : Bool :=
  3 * c.total ≤ 10 * c.shared

/-- The order of suggestions: the greater ratio first, of equal ratios the greater name. -/
def Candidate.before (c d : Candidate) : Bool :=
  if c.shared * d.total = d.shared * c.total then d.name ≤ c.name
  else d.shared * c.total < c.shared * d.total

/-- How many suggestions are made at most. -/
def suggestionLimit : Nat := 3

/-- The names that are close to a word, the best ones first. -/
def similar (names : List String) (word : String) : List String :=
  let close := (names.map (Candidate.of word)).filter Candidate.isClose
  ((close.mergeSort Candidate.before).take suggestionLimit).map Candidate.name

end HackToolchain.Text
