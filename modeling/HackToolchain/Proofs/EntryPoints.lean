import HackToolchain.Proofs.Disassembly.Reassembly
import HackToolchain.Proofs.Source.Files

/-!
# Files and texts as sources

A file and the text that it holds are assembled alike, up to the remembered path, as long as both
have the same lines. A character that ends a line in memory only is where they part: in a file it is
a blank like any other, so what stands behind it in an instruction line is a remark.
-/

namespace HackToolchain

open Text

variable {a : Assembler} {d : Directory} {path : Path} {s file : String} {c : Char}
variable {raws : List String} {statements : List Statement} {words : List Word}
variable {f g : Fields} {w v : Word}

namespace Assembler

theorem assembleLines_of_isFixed (h : Statement.ofLines file raws = .ok statements)
    (hfixed : List.Forall₂ (Statement.IsFixed a.settings) statements words) :
    (a.assembleLines file raws).2 = .ok words := by
  have hresult : (a.assembleLines file raws).2 =
      (Attempt.ofSource a.settings file ⟨raws, none⟩).result := rfl
  rw [hresult, Attempt.ofSource, h]
  simp only [Attempt.result, generate_of_isFixed hfixed]
  rfl

theorem record_source (attempt : Attempt) (source : Option Path) :
    { a with source := source }.record attempt = { a.record attempt with source := source } := by
  cases attempt <;> rfl

/-- A file that holds a text is assembled as the lines of the file, and its path is remembered. -/
theorem assembleFile_of_read (h : d.read path.text = .ok (Utf8.encode s)) :
    a.assembleFile d path =
      ({ (a.assembleLines path.text (fileLines s.toList)).1 with source := some path },
        (a.assembleLines path.text (fileLines s.toList)).2) := by
  rw [assembleFile, Attempt.ofFile, h]
  simp only [SourceFile.ofBytes_encode]
  rw [record_source]
  rfl

/-! ### A character that ends no line in a file -/

theorem lines_of_breaksTextOnly (hc : breaksTextOnly c = true) (hf : f.encode = .ok w)
    (hg : g.encode = .ok v) (hs : s.toList = f.text.toList ++ c :: g.text.toList) :
    lines s = [f.text, g.text] ∧ fileLines s.toList = [s] := by
  rw [breaksTextOnly, Bool.and_eq_true, Bool.not_eq_true'] at hc
  have hleft := isLineBreak_of_isSolid (Fields.isSolid_text hf)
  have hright := isLineBreak_of_isSolid (Fields.isSolid_text hg)
  constructor
  · have hcr : c ≠ '\r' := by
      rintro rfl
      exact absurd hc.2 (by decide)
    rw [lines, hs, splitLines_append_break hc.1 rfl (fun ds h => absurd h hcr) hleft,
      splitLines_of_forall_not (Fields.toList_text_ne_nil hg) rfl hright]
    simp only [List.map_cons, List.map_nil, String.ofList_toList]
  · have hwhole : splitLines isFileBreak s.toList = [s.toList] := by
      refine splitLines_of_forall_not (by simp [hs]) rfl ?_
      rw [hs, List.forall_mem_append, List.forall_mem_cons]
      exact ⟨fun e he => isFileBreak_of_isLineBreak_eq_false (hleft e he), hc.2,
        fun e he => isFileBreak_of_isLineBreak_eq_false (hright e he)⟩
    rw [fileLines, hwhole, List.map_singleton, String.ofList_toList]

/-- Between two compute instructions, a character that ends a line in memory only makes the second
one a remark in a file. -/
theorem results_of_breaksTextOnly (h : d.read path.text = .ok (Utf8.encode s))
    (hc : breaksTextOnly c = true) (hf : f.encode = .ok w) (hg : g.encode = .ok v)
    (hs : s.toList = f.text.toList ++ c :: g.text.toList) :
    (a.assembleFile d path).2 = .ok [w] ∧ (a.assembleText path.text s).2 = .ok [w, v] := by
  obtain ⟨hlines, hfileLines⟩ := lines_of_breaksTextOnly hc hf hg hs
  have hblank : isBlank c = true := by
    rw [breaksTextOnly, Bool.and_eq_true] at hc
    exact isBlank_of_isLineBreak hc.1
  have hsolid := Fields.isSolid_text hf
  have hsolid' := Fields.isSolid_text hg
  have hline : untilBlank s.toList = f.text.toList := by
    rw [hs, untilBlank_append hsolid hblank]
  have htrim : trim s = s := by
    apply trim_of_ends
    · intro e he
      rw [hs, List.head?_append_of_ne_nil _ (Fields.toList_text_ne_nil hf)] at he
      exact hsolid e (List.mem_of_head? he)
    · intro e he
      rw [hs, List.append_cons,
        List.getLast?_append_of_ne_nil _ (Fields.toList_text_ne_nil hg)] at he
      exact hsolid' e (List.mem_of_getLast? he)
  constructor
  · obtain ⟨x, hx, hfixed⟩ :=
      Statement.exists_ofLine_compute a.settings hf htrim hline path.text 1
    have hstatements : Statement.ofLines path.text [s] = .ok [x] := by
      rw [Statement.ofLines, Statement.ofLinesFrom, hx]
      rfl
    have hresult : (a.assembleLines path.text [s]).2 = .ok [w] :=
      assembleLines_of_isFixed hstatements (.cons hfixed .nil)
    rw [assembleFile_of_read h, hfileLines, hresult]
  · obtain ⟨x, hx, hfixed⟩ := Statement.exists_ofLine_compute a.settings hf
      (trim_of_isSolid hsolid) (untilBlank_of_isSolid hsolid) path.text 1
    obtain ⟨y, hy, hfixed'⟩ := Statement.exists_ofLine_compute a.settings hg
      (trim_of_isSolid hsolid') (untilBlank_of_isSolid hsolid') path.text 2
    have hstatements : Statement.ofLines path.text [f.text, g.text] = .ok [x, y] := by
      rw [Statement.ofLines, Statement.ofLinesFrom, hx, Statement.ofLinesFrom, hy]
      rfl
    rw [assembleText, hlines]
    exact assembleLines_of_isFixed hstatements (.cons hfixed (.cons hfixed' .nil))

/-- A session assembles a file that holds a text as it assembles the text, and remembers the path,
if no character of the text ends a line in memory only. This is when both have the same lines, and
none of these characters can be allowed: in a file, each of them makes a remark of the compute
instruction behind it. -/
theorem assembleFile_assembleText (h : d.read path.text = .ok (Utf8.encode s)) :
    (lines s = fileLines s.toList ↔ ∀ c ∈ s.toList, breaksTextOnly c = false) ∧
      ((∀ c ∈ s.toList, breaksTextOnly c = false) → a.assembleFile d path =
        ({ (a.assembleText path.text s).1 with source := some path },
          (a.assembleText path.text s).2)) ∧
      ∀ (c : Char) (f g : Fields) (w v : Word), breaksTextOnly c = true → f.encode = .ok w →
        g.encode = .ok v → s.toList = f.text.toList ++ c :: g.text.toList →
          (a.assembleFile d path).2 = .ok [w] ∧ (a.assembleText path.text s).2 = .ok [w, v] := by
  refine ⟨lines_eq_fileLines_iff, ?_, ?_⟩
  · intro hbreaks
    rw [assembleFile_of_read h, assembleText, lines_eq_fileLines_iff.2 hbreaks]
  · intro c f g w v hc hf hg hs
    exact results_of_breaksTextOnly h hc hf hg hs

/-- A text with a character of two bytes and all breaks that files know. -/
def remarkText : String := "@é // é\r\nD=M\r@é\n"

def remarkDirectory : Directory := .ofNodes [("a.asm", .file (Utf8.encode remarkText))]

theorem assembleFile_remarkText :
    remarkDirectory.read (Path.ofText "a.asm").text = .ok (Utf8.encode remarkText) ∧
      (∀ c ∈ remarkText.toList, breaksTextOnly c = false) ∧
      (start .default).assembleFile remarkDirectory (.ofText "a.asm") =
        ({ ((start .default).assembleText (Path.ofText "a.asm").text remarkText).1 with
            source := some (.ofText "a.asm") },
          ((start .default).assembleText (Path.ofText "a.asm").text remarkText).2) := by
  have hread : remarkDirectory.read (Path.ofText "a.asm").text =
      .ok (Utf8.encode remarkText) := by
    decide +kernel
  have hall : (remarkText.toList.all fun c => !breaksTextOnly c) = true := by
    decide +kernel
  have hbreaks : ∀ c ∈ remarkText.toList, breaksTextOnly c = false := by
    intro c hc
    simpa using List.all_eq_true.1 hall c hc
  obtain ⟨-, hsame, -⟩ := assembleFile_assembleText (a := start .default) hread
  exact ⟨hread, hbreaks, hsame hbreaks⟩

/-- A vertical tab between two instructions. -/
def tabText : String := "@1\x0b@2"

def tabDirectory : Directory := .ofNodes [("a.asm", .file (Utf8.encode tabText))]

theorem assembleFile_tabText :
    tabDirectory.read (Path.ofText "a.asm").text = .ok (Utf8.encode tabText) ∧
      ((start .default).assembleFile tabDirectory (.ofText "a.asm")).2 =
        .ok ["0000000000000001"] ∧
      ((start .default).assembleText (Path.ofText "a.asm").text tabText).2 =
        .ok ["0000000000000001", "0000000000000010"] := by
  decide +kernel

end Assembler

end HackToolchain
