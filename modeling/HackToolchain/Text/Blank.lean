/-!
# Blank characters

Layout in a source line, a machine-code file or a symbol file is written with blank characters.
A blank is a control that moves the writing position, an information separator, or a space of any
width that Unicode knows; the zero-width spaces and the byte order mark are not blanks.
-/

namespace HackToolchain.Text

/-- A blank: the controls `U+0009` to `U+000D` and `U+001C` to `U+001F`, the space, and the wider
spaces and separators of Unicode. -/
def isBlank (c : Char) : Bool :=
  let n := c.toNat
  (0x09 ≤ n && n ≤ 0x0D) || (0x1C ≤ n && n ≤ 0x20) || n == 0x85 || n == 0xA0 || n == 0x1680 ||
    (0x2000 ≤ n && n ≤ 0x200A) || n == 0x2028 || n == 0x2029 || n == 0x202F || n == 0x205F ||
    n == 0x3000

/-- The list without the elements at its two ends that satisfy `p`. -/
def trimWhile (p : Char → Bool) (cs : List Char) : List Char :=
  ((cs.dropWhile p).reverse.dropWhile p).reverse

/-- The text without the blanks at its two ends. -/
def trim (s : String) : String :=
  String.ofList (trimWhile isBlank s.toList)

/-- The characters before the first blank. -/
def untilBlank (cs : List Char) : List Char :=
  cs.takeWhile fun c => !isBlank c

theorem untilBlank_append_dropWhile (cs : List Char) :
    untilBlank cs ++ cs.dropWhile (fun c => !isBlank c) = cs :=
  List.takeWhile_append_dropWhile

theorem isBlank_of_mem_untilBlank {c : Char} {cs : List Char} (h : c ∈ untilBlank cs) :
    isBlank c = false := by
  have hall := List.all_takeWhile (p := fun c => !isBlank c) (l := cs)
  simpa using List.all_eq_true.1 hall c h

/-- A text of blanks only, the empty text included. -/
def isAllBlank (s : String) : Bool :=
  s.toList.all isBlank

/-- The maximal runs of characters that are not blank, on lists. -/
def fieldLists : List Char → List (List Char)
  | [] => []
  | c :: cs =>
    if isBlank c then fieldLists cs
    else match cs with
      | [] => [[c]]
      | d :: _ =>
        if isBlank d then [c] :: fieldLists cs
        else match fieldLists cs with
          | [] => [[c]]
          | run :: runs => (c :: run) :: runs

/-- The maximal runs of characters that are not blank. -/
def fields (s : String) : List String :=
  (fieldLists s.toList).map String.ofList

end HackToolchain.Text
