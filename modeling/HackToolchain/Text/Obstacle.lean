import HackToolchain.Text.Numeral

/-!
# Obstacles to writing a text

A text is only written within limits: an integer has at most 4300 digits, spaces are counted by an
index of 64 bits with a sign, and the text has to fit in memory. How many characters that is differs
from one machine to the next, so the size of the memory is given. An ample memory holds every text
whose characters an index counts.
-/

namespace HackToolchain.Text

/-- What keeps a text from being written. -/
inductive Obstacle where
  /-- An integer has more digits than the limit allows. -/
  | longNumber
  /-- No index counts so many spaces. -/
  | beyondIndex
  /-- The text does not fit in memory. -/
  | beyondMemory
  deriving DecidableEq

/-- The wording of an obstacle; there is none for a lack of memory. -/
def Obstacle.message : Obstacle → String
  | longNumber =>
    "Exceeds the limit (" ++ toString Numeral.digitLimit ++ " digits) for integer string " ++
      "conversion; use sys.set_int_max_str_digits() to increase the limit"
  | beyondIndex => "cannot fit 'int' into an index-sized integer"
  | beyondMemory => ""

/-- What keeps an integer from being written. -/
def numberObstacle? (n : Int) : Option Obstacle :=
  if Numeral.isWritable n then none else some .longNumber

/-- The largest index, one less than the 63rd power of two. -/
def indexMax : Int := 9223372036854775807

/-- The number of characters that an ample memory holds. -/
def ampleMemory : Int := indexMax

/-- What keeps a number of spaces from being written, where `memory` characters fit in memory. -/
def spacesObstacle? (memory n : Int) : Option Obstacle :=
  if indexMax < n then some .beyondIndex
  else if memory < n then some .beyondMemory
  else none

theorem numberObstacle?_eq_none_iff {n : Int} :
    numberObstacle? n = none ↔ Numeral.isWritable n = true := by
  simp [numberObstacle?]

theorem numberObstacle?_eq_some_iff {n : Int} {obstacle : Obstacle} :
    numberObstacle? n = some obstacle ↔ Numeral.isWritable n = false ∧ obstacle = .longNumber := by
  rw [numberObstacle?]
  cases Numeral.isWritable n with
  | true => simp
  | false => simp [eq_comm]

/-- What is written is counted by an index and fits in memory. -/
theorem spacesObstacle?_eq_none_iff {memory n : Int} :
    spacesObstacle? memory n = none ↔ n ≤ indexMax ∧ n ≤ memory := by
  unfold spacesObstacle?
  split
  · simp only [reduceCtorEq, false_iff]
    omega
  · split
    · simp only [reduceCtorEq, false_iff]
      omega
    · simp only [true_iff]
      omega

end HackToolchain.Text
