import HackToolchain.Text.Blank
import HackToolchain.Text.Lines
import Mathlib.Data.List.DropRight
import Mathlib.Data.List.TakeWhile

/-!
# Texts without blanks and their lines

A text without blanks is not changed when its outer blanks are taken off or when it is cut at its
first blank. Since line breaks are blanks, texts of this kind that are written below each other are
cut apart again as they were.
-/

namespace HackToolchain.Text

variable {isBreak : Char → Bool} {c : Char} {cs ds line rest front back : List Char} {s : String}
variable {ls : List String}

/-! ### Blanks -/

/-- Characters that are not blank. -/
def IsSolid (cs : List Char) : Prop :=
  ∀ c ∈ cs, isBlank c = false

instance : Decidable (IsSolid cs) :=
  List.decidableBAll (fun c => isBlank c = false) cs

@[simp]
theorem isSolid_nil : IsSolid [] :=
  fun _ hc => absurd hc List.not_mem_nil

@[simp]
theorem isSolid_append : IsSolid (cs ++ ds) ↔ IsSolid cs ∧ IsSolid ds := by
  simp only [IsSolid, List.mem_append, or_imp, forall_and]

@[simp]
theorem isSolid_cons : IsSolid (c :: cs) ↔ isBlank c = false ∧ IsSolid cs := by
  simp only [IsSolid, List.mem_cons, forall_eq_or_imp]

theorem isSolid_untilBlank : IsSolid (untilBlank cs) :=
  fun _ hc => isBlank_of_mem_untilBlank hc

theorem untilBlank_of_isSolid (h : IsSolid cs) : untilBlank cs = cs := by
  apply List.takeWhile_eq_self_iff.2
  intro c hc
  rw [h c hc]
  rfl

theorem untilBlank_append (h : IsSolid cs) (hc : isBlank c = true) :
    untilBlank (cs ++ c :: rest) = cs := by
  rw [untilBlank, List.takeWhile_append_of_pos fun d hd => by simp [h d hd]]
  simp [hc]

theorem dropWhile_isBlank_of_head? (h : ∀ c ∈ cs.head?, isBlank c = false) :
    cs.dropWhile isBlank = cs := by
  cases cs with
  | nil => rfl
  | cons c cs => rw [List.dropWhile_cons_of_neg (by simp [h c rfl])]

/-- The first character that is not blank stays the first one. -/
theorem head?_trim (s : String) : (trim s).toList.head? = (s.toList.dropWhile isBlank).head? := by
  rw [trim, String.toList_ofList, trimWhile]
  obtain ⟨more, hmore⟩ := List.rdropWhile_prefix isBlank (s.toList.dropWhile isBlank)
  rw [List.rdropWhile] at hmore
  cases hhead : (s.toList.dropWhile isBlank).head? with
  | none =>
    rw [List.head?_eq_none_iff.1 hhead]
    rfl
  | some c =>
    have hblank := List.head?_dropWhile_not isBlank s.toList
    rw [hhead] at hblank
    cases htrim : ((s.toList.dropWhile isBlank).reverse.dropWhile isBlank).reverse with
    | nil =>
      -- A character that is not blank keeps the text from being taken off as a whole.
      have hall := List.rdropWhile_eq_nil_iff.1 htrim c (List.mem_of_head? hhead)
      simp [hall] at hblank
    | cons d ds =>
      rw [htrim] at hmore
      rw [← hmore] at hhead
      exact hhead

/-- A text that neither begins nor ends with a blank. -/
theorem trim_of_ends (hfirst : ∀ c ∈ s.toList.head?, isBlank c = false)
    (hlast : ∀ c ∈ s.toList.getLast?, isBlank c = false) : trim s = s := by
  rw [← List.head?_reverse] at hlast
  rw [trim, trimWhile, dropWhile_isBlank_of_head? hfirst, dropWhile_isBlank_of_head? hlast,
    List.reverse_reverse, String.ofList_toList]

/-- The blanks around a text are taken off. -/
theorem trim_of_surrounded (hs : s.toList = front ++ cs ++ back) (hne : cs ≠ [])
    (hfront : ∀ c ∈ front, isBlank c = true) (hback : ∀ c ∈ back, isBlank c = true)
    (hfirst : ∀ c ∈ cs.head?, isBlank c = false) (hlast : ∀ c ∈ cs.getLast?, isBlank c = false) :
    trim s = String.ofList cs := by
  have hends : (cs ++ back).dropWhile isBlank = cs ++ back := by
    apply dropWhile_isBlank_of_head?
    obtain ⟨c, ds, rfl⟩ := List.exists_cons_of_ne_nil hne
    exact hfirst
  rw [← List.head?_reverse] at hlast
  rw [trim, trimWhile, hs, List.append_assoc, List.dropWhile_append_of_pos hfront, hends,
    List.reverse_append, List.dropWhile_append_of_pos fun c hc => hback c (List.mem_reverse.1 hc),
    dropWhile_isBlank_of_head? hlast, List.reverse_reverse]

theorem trim_of_isSolid (h : IsSolid s.toList) : trim s = s := by
  apply trim_of_ends
  · intro c hc
    exact h c (List.mem_of_head? hc)
  · intro c hc
    exact h c (List.mem_of_getLast? hc)

theorem isAllBlank_of_isSolid (h : IsSolid s.toList) (hne : s.toList ≠ []) :
    isAllBlank s = false := by
  obtain ⟨c, hc⟩ := List.exists_mem_of_ne_nil _ hne
  exact List.all_eq_false.2 ⟨c, hc, by simp [h c hc]⟩

theorem isBlank_of_isLineBreak (h : isLineBreak c = true) : isBlank c = true := by
  simp only [isLineBreak, isBlank, Bool.or_eq_true, Bool.and_eq_true, decide_eq_true_eq,
    beq_iff_eq] at h ⊢
  omega

theorem isLineBreak_of_isSolid (h : IsSolid cs) : ∀ c ∈ cs, isLineBreak c = false := by
  intro c hc
  by_contra hbreak
  have hblank := isBlank_of_isLineBreak (by simpa using hbreak)
  rw [h c hc] at hblank
  exact Bool.false_ne_true hblank

/-! ### Runs -/

theorem fieldLists_cons_of_isBlank (h : isBlank c = true) :
    fieldLists (c :: cs) = fieldLists cs := by
  cases cs <;> simp [fieldLists, h]

/-- A run that is not empty ends where the text ends, or at a blank. -/
theorem fieldLists_append (h : IsSolid cs) (hne : cs ≠ [])
    (hrest : ∀ c ∈ rest.head?, isBlank c = true) :
    fieldLists (cs ++ rest) = cs :: fieldLists rest := by
  induction cs with
  | nil => exact absurd rfl hne
  | cons c cs ih =>
    obtain ⟨hc, hcs⟩ := isSolid_cons.1 h
    cases cs with
    | nil =>
      cases rest with
      | nil => simp [fieldLists, hc]
      | cons d rest => simp [fieldLists, hc, hrest d rfl]
    | cons d ds =>
      have hd : isBlank d = false := (isSolid_cons.1 hcs).1
      have hruns := ih hcs (by simp)
      rw [List.cons_append] at hruns
      rw [List.cons_append, List.cons_append, fieldLists, if_neg (by simp [hc])]
      simp only [hd, hruns]
      rfl

theorem fieldLists_of_isSolid (h : IsSolid cs) (hne : cs ≠ []) : fieldLists cs = [cs] := by
  have hruns : fieldLists (cs ++ []) = cs :: fieldLists [] := fieldLists_append h hne (by simp)
  rwa [List.append_nil] at hruns

/-! ### Lines -/

theorem splitLines_cons (h : ∀ ds, c = '\r' → cs ≠ '\n' :: ds) : splitLines isBreak (c :: cs) =
    if isBreak c then [] :: splitLines isBreak cs
    else match splitLines isBreak cs with
      | [] => [[c]]
      | line :: rest => (c :: line) :: rest :=
  splitLines.eq_3 isBreak c cs h

/-- A break ends a line, whatever follows; only a carriage return may be joined with it. -/
theorem splitLines_append_break (hc : isBreak c = true) (hr : isBreak '\r' = true)
    (hpair : ∀ ds, c = '\r' → rest ≠ '\n' :: ds) (h : ∀ c ∈ line, isBreak c = false) :
    splitLines isBreak (line ++ c :: rest) = line :: splitLines isBreak rest := by
  induction line with
  | nil =>
    rw [List.nil_append, splitLines_cons hpair, if_pos hc]
  | cons d line ih =>
    have hd : isBreak d = false := h d List.mem_cons_self
    -- A character that is no break is no carriage return, so it begins no pair.
    have hne : d ≠ '\r' := by
      rintro rfl
      rw [hr] at hd
      exact Bool.false_ne_true hd.symm
    rw [List.cons_append, splitLines_cons fun ds hcr => absurd hcr hne, hd,
      ih fun e he => h e (List.mem_cons_of_mem d he)]
    rfl

/-- A text without blanks is one line. -/
theorem lines_of_isSolid (h : IsSolid s.toList) (hne : s.toList ≠ []) : lines s = [s] := by
  rw [lines, splitLines_of_forall_not hne rfl (isLineBreak_of_isSolid h), List.map_singleton,
    String.ofList_toList]

/-- A text has no more lines than characters, and no line is longer than the text. -/
theorem length_splitLines_le : (splitLines isBreak cs).length ≤ cs.length ∧
    ∀ line ∈ splitLines isBreak cs, line.length ≤ cs.length := by
  fun_induction splitLines isBreak cs with
  | case1 => simp
  | case2 cs ih =>
    simp only [List.length_cons, List.forall_mem_cons, List.length_nil]
    exact ⟨by omega, by omega, fun line hline => (ih.2 line hline).trans (by omega)⟩
  | case3 c cs _ hb ih =>
    simp only [List.length_cons, List.forall_mem_cons, List.length_nil]
    exact ⟨by omega, by omega, fun line hline => (ih.2 line hline).trans (by omega)⟩
  | case4 c cs _ hb hs ih => simp
  | case5 c cs _ hb line rest hs ih =>
    rw [hs] at ih
    obtain ⟨hlength, hlines⟩ := ih
    obtain ⟨hline, hrest⟩ := List.forall_mem_cons.1 hlines
    simp only [List.length_cons, List.forall_mem_cons] at hlength ⊢
    exact ⟨by omega, by omega, fun line hline => (hrest line hline).trans (by omega)⟩

theorem length_lines_le (s : String) : (lines s).length ≤ s.toList.length := by
  rw [lines, List.length_map]
  exact length_splitLines_le.1

theorem length_le_of_mem_lines {line : String} (h : line ∈ lines s) :
    line.toList.length ≤ s.toList.length := by
  obtain ⟨cs, hcs, rfl⟩ := List.mem_map.1 h
  rw [String.toList_ofList]
  exact length_splitLines_le.2 cs hcs

theorem length_trim_le (s : String) : (trim s).toList.length ≤ s.toList.length := by
  rw [trim, String.toList_ofList, trimWhile, List.length_reverse]
  have hback := (List.dropWhile_suffix (l := (s.toList.dropWhile isBlank).reverse) isBlank).length_le
  have hfront := (List.dropWhile_suffix (l := s.toList) isBlank).length_le
  rw [List.length_reverse] at hback
  exact hback.trans hfront

theorem splitLines_ne_nil (h : cs ≠ []) : splitLines isBreak cs ≠ [] := by
  fun_cases splitLines isBreak cs with
  | case1 => exact absurd rfl h
  | _ => simp

/-- A character that begins no pair of breaks begins none in front of a longer text. -/
theorem no_pair_append (d : Char) (h : ∀ es, c = '\r' → d :: cs ≠ '\n' :: es) :
    ∀ es, c = '\r' → (d :: cs) ++ rest ≠ '\n' :: es := by
  rintro es rfl heq
  rw [List.cons_append, List.cons.injEq] at heq
  exact h cs rfl (by rw [heq.1])

/-- A line feed behind a text that does not end with a break separates its lines from those that
follow. -/
theorem splitLines_append_newline (hr : isBreak '\r' = true) (hn : isBreak '\n' = true)
    (hlast : ∀ c ∈ cs.getLast?, isBreak c = false) (hne : cs ≠ []) :
    splitLines isBreak (cs ++ '\n' :: rest) = splitLines isBreak cs ++ splitLines isBreak rest := by
  -- In each case the text is a single character, or its last character is also that of the rest.
  fun_induction splitLines isBreak cs with
  | case1 => exact absurd rfl hne
  | case2 cs ih =>
    cases cs with
    | nil => simp [hn] at hlast
    | cons d ds =>
      rw [List.cons_append, List.cons_append, splitLines, ih (by simpa using hlast) (by simp)]
      rfl
  | case3 c cs hpair hb ih =>
    cases cs with
    | nil => simp [hb] at hlast
    | cons d ds =>
      rw [List.cons_append, splitLines_cons (no_pair_append d hpair), if_pos hb,
        ih (by simpa using hlast) (by simp)]
      rfl
  | case4 c cs hpair hb hs ih =>
    -- Only an empty text has no lines, so this character is the last one.
    cases cs with
    | cons d ds => exact absurd hs (splitLines_ne_nil (by simp))
    | nil =>
      have hc : c ≠ '\r' := by
        rintro rfl
        exact hb hr
      rw [List.singleton_append, splitLines_cons fun es hcr => absurd hcr hc, if_neg hb,
        splitLines_cons fun es hcr => absurd hcr (by decide), if_pos hn]
      rfl
  | case5 c cs hpair hb line lines hs ih =>
    cases cs with
    | nil => simp [splitLines] at hs
    | cons d ds =>
      rw [List.cons_append, splitLines_cons (no_pair_append d hpair), if_neg hb,
        ih (by simpa using hlast) (by simp), hs]
      rfl

theorem toList_closeLines_cons (l : String) (ls : List String) :
    (closeLines (l :: ls)).toList = l.toList ++ '\n' :: (closeLines ls).toList := by
  rw [closeLines_cons, String.toList_append, String.toList_append, List.append_assoc]
  rfl

theorem closeLines_append (ls more : List String) :
    closeLines (ls ++ more) = closeLines ls ++ closeLines more := by
  apply String.toList_injective
  simp [closeLines]

theorem joinLines_append_newline (h : ls ≠ []) : joinLines ls ++ "\n" = closeLines ls := by
  induction ls with
  | nil => exact absurd rfl h
  | cons l ls ih =>
    rw [closeLines_cons, joinLines]
    cases ls with
    | nil => rw [String.intercalate_singleton]; simp [closeLines]
    | cons l' ls =>
      rw [String.intercalate_cons_cons, ← ih (by simp), joinLines]
      simp only [String.append_assoc]

/-- Lines that are written below each other are found again, or the lines of which they consist, if
none of them ends with a break. -/
theorem lines_closeLines_flatMap
    (h : ∀ l ∈ ls, l.toList ≠ [] ∧ ∀ c ∈ l.toList.getLast?, isLineBreak c = false) :
    lines (closeLines ls) = ls.flatMap lines := by
  induction ls with
  | nil => rfl
  | cons l ls ih =>
    obtain ⟨⟨hne, hlast⟩, hls⟩ := List.forall_mem_cons.1 h
    have hrest := ih hls
    simp only [lines] at hrest ⊢
    rw [toList_closeLines_cons, splitLines_append_newline rfl rfl hlast hne, List.map_append, hrest,
      List.flatMap_cons]
    rfl

theorem lines_closeLines (h : ∀ l ∈ ls, IsSolid l.toList) : lines (closeLines ls) = ls := by
  induction ls with
  | nil => rfl
  | cons l ls ih =>
    have hl := isLineBreak_of_isSolid (h l List.mem_cons_self)
    have hls := ih fun l' hl' => h l' (List.mem_cons_of_mem l hl')
    rw [lines] at hls ⊢
    have hbreak : splitLines isLineBreak (l.toList ++ '\n' :: (closeLines ls).toList) =
        l.toList :: splitLines isLineBreak (closeLines ls).toList :=
      splitLines_append_break rfl rfl (fun ds hcr => absurd hcr (by decide)) hl
    rw [toList_closeLines_cons, hbreak, List.map_cons, hls, String.ofList_toList]

/-- Lines without breaks that are joined are found again, but for an empty last line. -/
theorem lines_joinLines_cases (h : ∀ l ∈ ls, ∀ c ∈ l.toList, isLineBreak c = false) :
    lines (joinLines ls) = ls ∨ lines (joinLines ls) ++ [""] = ls := by
  induction ls with
  | nil => exact .inl rfl
  | cons l ls ih =>
    obtain ⟨hl, hls⟩ := List.forall_mem_cons.1 h
    cases ls with
    | nil =>
      rw [joinLines, String.intercalate_singleton]
      by_cases hempty : l.toList = []
      · rw [String.toList_eq_nil_iff] at hempty
        subst hempty
        exact .inr rfl
      · rw [lines, splitLines_of_forall_not hempty rfl hl, List.map_singleton, String.ofList_toList]
        exact .inl rfl
    | cons l' ls =>
      have hjoin : lines (joinLines (l :: l' :: ls)) = l :: lines (joinLines (l' :: ls)) := by
        have htext : (joinLines (l :: l' :: ls)).toList =
            l.toList ++ '\n' :: (joinLines (l' :: ls)).toList := by
          rw [joinLines, String.intercalate_cons_cons, joinLines, String.toList_append,
            String.toList_append, List.append_assoc]
          rfl
        rw [lines, htext, splitLines_append_break rfl rfl (fun ds hcr => absurd hcr (by decide)) hl,
          List.map_cons, String.ofList_toList]
        rfl
      rw [hjoin, List.cons_append, List.cons.injEq, List.cons.injEq]
      exact (ih hls).imp (⟨rfl, ·⟩) (⟨rfl, ·⟩)

/-- Lines without blanks that are written below each other are found again. No lines at all are
written as one empty line. -/
theorem lines_joinLines (h : ∀ l ∈ ls, IsSolid l.toList) :
    lines (joinLines ls ++ "\n") = if ls = [] then [""] else ls := by
  split
  · next hnil =>
    rw [hnil]
    rfl
  · next hne => rw [joinLines_append_newline hne, lines_closeLines h]

end HackToolchain.Text
