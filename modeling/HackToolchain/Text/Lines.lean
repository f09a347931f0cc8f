/-!
# Lines of a text

A text falls into lines at break characters. A carriage return followed by a line feed is one break,
and a break at the very end opens no further line. Text held in memory breaks at every vertical
control and Unicode separator; a file that is read line by line breaks at carriage returns and line
feeds only.
-/

namespace HackToolchain.Text

/-- The breaks of a text held in memory. -/
def isLineBreak (c : Char) : Bool :=
  let n := c.toNat
  (0x0A ≤ n && n ≤ 0x0D) || (0x1C ≤ n && n ≤ 0x1E) || n == 0x85 || n == 0x2028 || n == 0x2029

/-- The breaks of a file that is read line by line. -/
def isFileBreak (c : Char) : Bool :=
  c == '\n' || c == '\r'

/-- The lines of `cs`, cut at the characters that satisfy `isBreak`. -/
def splitLines (isBreak : Char → Bool) : List Char → List (List Char)
  | [] => []
  | '\r' :: '\n' :: cs => [] :: splitLines isBreak cs
  | c :: cs =>
    if isBreak c then [] :: splitLines isBreak cs
    else match splitLines isBreak cs with
      | [] => [[c]]
      | line :: rest => (c :: line) :: rest

/-- A text without breaks is one line. -/
theorem splitLines_of_forall_not {isBreak : Char → Bool} {cs : List Char} (hne : cs ≠ [])
    (hr : isBreak '\r' = true) (h : ∀ c ∈ cs, isBreak c = false) :
    splitLines isBreak cs = [cs] := by
  fun_induction splitLines isBreak cs with
  | case1 => exact absurd rfl hne
  | case2 cs => simp [h '\r'] at hr
  | case3 c cs _ hb => simp [h c] at hb
  | case4 c cs _ hb hs ih =>
    cases cs with
    | nil => rfl
    | cons d ds =>
      have hline := ih (by simp) fun x hx => h x (by simp [hx])
      simp [hs] at hline
  | case5 c cs _ hb line rest hs ih =>
    cases cs with
    | nil => simp [splitLines] at hs
    | cons d ds =>
      have hline := ih (by simp) fun x hx => h x (by simp [hx])
      simp_all

/-- The lines of a text held in memory. -/
def lines (s : String) : List String :=
  (splitLines isLineBreak s.toList).map String.ofList

/-- The lines of the text of a file that is read line by line. -/
def fileLines (cs : List Char) : List String :=
  (splitLines isFileBreak cs).map String.ofList

/-- The lines of a file whose last line may still go on: a line counts once its break is known to be
over, which a carriage return at the very end is not. -/
def completeFileLines (cs : List Char) : List String :=
  let known := if cs.getLast? = some '\r' then cs.dropLast else cs
  let closed := (known.reverse.dropWhile fun c => !isFileBreak c).reverse
  fileLines closed

/-- The lines with a line feed between each two. -/
def joinLines (ls : List String) : String :=
  "\n".intercalate ls

/-- The lines, each ended by a line feed. -/
def closeLines (ls : List String) : String :=
  String.ofList (ls.flatMap fun l => l.toList ++ ['\n'])

theorem closeLines_cons (l : String) (ls : List String) :
    closeLines (l :: ls) = l ++ "\n" ++ closeLines ls := by
  apply String.toList_injective
  simp [closeLines]

end HackToolchain.Text
