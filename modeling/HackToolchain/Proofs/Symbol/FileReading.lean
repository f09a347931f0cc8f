import HackToolchain.Program.Listing
import HackToolchain.Proofs.Text.Digits
import HackToolchain.Proofs.Text.Layout
import HackToolchain.Symbol.File

/-!
# Reading what a symbol file says

A symbol file is written line by line and read line by line, and the two do not agree on what a line
is. The name of a variable has no blanks, so its line is found again; but a line that begins with a
number sign is a comment to the reader. The name of a label is any text, which may have blanks and
even line breaks, so its line can hold three fields of its own, and one of them may be the word for a
variable.
-/

namespace HackToolchain

open Text

/-! ### Maps -/

namespace SymbolMap

variable {m m' : SymbolMap} {address : Int} {name line : String} {ls : List String}

theorem lookup_insertNew (a : Int) : (m.insertNew address name).lookup a =
    (m.lookup a).or (if a = address then some name else none) := by
  rw [insertNew]
  by_cases h : a = address
  · subst h
    cases hlookup : m.lookup a <;> simp [hlookup, List.lookup_append]
  · have hne : (a == address) = false := by simpa using h
    split <;> simp [List.lookup_append, List.lookup_cons, hne]

/-- A line describes a variable if it is no comment and its third field says so. -/
theorem variableOf?_eq_some_iff {text : String} : variableOf? line = some (name, text) ↔
    (trim line).toList.head? ≠ some '#' ∧
      ∃ rest, fields (trim line) = name :: text :: "variable" :: rest := by
  rw [variableOf?]
  by_cases hsign : (trim line).toList.head? = some '#'
  · simp [hsign]
  · simp only [if_neg hsign]
    split
    · next name' text' kind rest hfields =>
      by_cases hkind : kind = "variable" <;> simp [hfields, hkind, hsign]
    · next hshort =>
      simp only [reduceCtorEq, false_iff, not_and, not_exists]
      exact fun _ rest => hshort name text "variable" rest

/-- The address and the name that a line adds to a map, if its address is an integer. -/
def pairOf? (line : String) : Option (Int × String) :=
  (variableOf? line).bind fun entry =>
    (Numeral.readInt entry.2).toOption.map fun address => (address, entry.1)

theorem pairOf?_eq_some_iff {a : Int} : pairOf? line = some (a, name) ↔
    ∃ text, variableOf? line = some (name, text) ∧ Numeral.readInt text = .ok a := by
  rw [pairOf?]
  cases hline : variableOf? line with
  | none => simp
  | some entry =>
    obtain ⟨shown, text⟩ := entry
    cases hread : Numeral.readInt text with
    | error fault => simp [hread, Except.toOption]
    | ok address => simp [hread, Except.toOption, and_comm]

/-- Lines are read exactly if what stands for an address is an integer in all of them. -/
theorem exists_addLines_iff : (∃ m', m.addLines ls = .ok m') ↔
    ∀ line ∈ ls, ∀ name text, variableOf? line = some (name, text) →
      ∃ a, Numeral.readInt text = .ok a := by
  induction ls generalizing m with
  | nil => simp [addLines]
  | cons line ls ih =>
    rw [List.forall_mem_cons, addLines]
    cases hline : variableOf? line with
    | none => simpa using ih
    | some entry =>
      obtain ⟨name, text⟩ := entry
      cases hread : Numeral.readInt text with
      | error fault => simp [hread]
      | ok address => simpa [hread] using ih

/-- The first line decides that names an address, unless the address has a name before. -/
theorem lookup_addLines (h : m.addLines ls = .ok m') (a : Int) :
    m'.lookup a = (m.lookup a).or ((ls.filterMap pairOf?).lookup a) := by
  -- The map grows with the lines, so the induction is for any map.
  induction ls generalizing m with
  | nil =>
    obtain rfl := Except.ok.inj h
    simp
  | cons line ls ih =>
    rw [addLines] at h
    cases hline : variableOf? line with
    | none =>
      simp only [hline] at h
      have hpair : pairOf? line = none := by simp [pairOf?, hline]
      rw [ih h, List.filterMap_cons_none hpair]
    | some entry =>
      obtain ⟨name, text⟩ := entry
      simp only [hline] at h
      cases hread : Numeral.readInt text with
      | error fault => simp [hread] at h
      | ok address =>
        simp only [hread] at h
        have hpair := pairOf?_eq_some_iff.2 ⟨text, hline, hread⟩
        rw [ih h, List.filterMap_cons_some hpair, lookup_insertNew, Option.or_assoc,
          List.lookup_cons]
        by_cases heq : a = address
        · simp [heq]
        · simp [heq, beq_eq_false_iff_ne.2 heq]

end SymbolMap

/-! ### Lines of symbols -/

namespace Symbol

variable {s : Symbol}

/-- A line of the line of a symbol shows a variable: without outer blanks it is no comment, and its
third field is the word for a variable. -/
def Shows (s : Symbol) (name text : String) : Prop :=
  ∃ line ∈ lines s.fileLine, (trim line).toList.head? ≠ some '#' ∧
    ∃ rest, fields (trim line) = name :: text :: "variable" :: rest

/-- A symbol whose name is one run, and whose address can be written without a sign. -/
structure IsPlain (s : Symbol) : Prop where
  isSolid_name : IsSolid s.name.toList
  name_ne_nil : s.name.toList ≠ []
  address_nonneg : 0 ≤ s.address
  isWritable_address : Numeral.isWritable s.address = true

theorem toList_fileLine : s.fileLine.toList =
    s.name.toList ++ ' ' :: ((toString s.address).toList ++ ' ' :: s.kind.name.toList) := by
  simp [fileLine]

/-- The line of a symbol ends with a letter. -/
theorem exists_getLast?_fileLine :
    ∃ c, s.fileLine.toList.getLast? = some c ∧ isBlank c = false := by
  have hsplit : s.fileLine.toList =
      (s.name.toList ++ ' ' :: ((toString s.address).toList ++ [' '])) ++ s.kind.name.toList := by
    simp [fileLine]
  have hlast : ∃ c, s.kind.name.toList.getLast? = some c ∧ isBlank c = false := by
    cases s.kind <;> exact ⟨_, rfl, rfl⟩
  obtain ⟨c, hc, hblank⟩ := hlast
  refine ⟨c, ?_, hblank⟩
  rw [hsplit, List.getLast?_append, hc, Option.some_or]

/-- What is read from a line of a symbol is what the symbol shows. -/
theorem shows_iff {name text : String} : s.Shows name text ↔
    ∃ line ∈ lines s.fileLine, SymbolMap.variableOf? line = some (name, text) := by
  simp only [Shows, SymbolMap.variableOf?_eq_some_iff]

namespace IsPlain

theorem isSolid_address (h : s.IsPlain) : IsSolid (toString s.address).toList ∧
    (toString s.address).toList ≠ [] ∧ Numeral.readInt (toString s.address) = .ok s.address := by
  -- The sign is left out, so the text of the address is that of a natural number.
  obtain ⟨n, hn⟩ := Int.eq_ofNat_of_zero_le h.address_nonneg
  have hwritable := h.isWritable_address
  rw [hn] at hwritable ⊢
  have htext : toString (n : Int) = toString n := rfl
  refine ⟨?_, ?_, ?_⟩
  · rw [htext, toList_toString]
    exact fun c hc => isBlank_of_isAsciiDigit (isAsciiDigit_of_mem_toDigits hc)
  · rw [htext, toList_toString]
    exact Nat.toDigits_ne_nil
  · rw [htext]
    exact Numeral.readInt_toString hwritable

/-- A plain symbol stands on one line. -/
theorem lines_fileLine (h : s.IsPlain) : lines s.fileLine = [s.fileLine] := by
  have hkind : IsSolid s.kind.name.toList := by
    cases s.kind <;> decide
  -- Line breaks are blanks, and the only blanks are the two spaces.
  have hbreak : ∀ c ∈ s.fileLine.toList, isLineBreak c = false := by
    have hparts := isLineBreak_of_isSolid
      (isSolid_append.2 ⟨h.isSolid_name, isSolid_append.2 ⟨h.isSolid_address.1, hkind⟩⟩)
    intro c hc
    rw [toList_fileLine] at hc
    have hspace : isLineBreak ' ' = false := by decide
    simp only [List.mem_append, List.mem_cons] at hparts hc
    rcases hc with hc | rfl | hc | rfl | hc
    · exact hparts c (.inl hc)
    · exact hspace
    · exact hparts c (.inr (.inl hc))
    · exact hspace
    · exact hparts c (.inr (.inr hc))
  have hne : s.fileLine.toList ≠ [] := by
    rw [toList_fileLine]
    simp
  rw [lines, splitLines_of_forall_not hne rfl hbreak, List.map_singleton, String.ofList_toList]

/-- The line of a plain symbol has no outer blanks. -/
theorem trim_fileLine (h : s.IsPlain) : trim s.fileLine = s.fileLine := by
  apply trim_of_ends
  · intro c hc
    rw [toList_fileLine, List.head?_append_of_ne_nil _ h.name_ne_nil] at hc
    exact h.isSolid_name c (List.mem_of_head? hc)
  · intro c hc
    obtain ⟨d, hlast, hd⟩ := exists_getLast?_fileLine (s := s)
    obtain rfl : d = c := by simpa [hlast] using hc
    exact hd

/-- The line of a plain symbol falls into three fields. -/
theorem fields_fileLine (h : s.IsPlain) :
    fields s.fileLine = [s.name, toString s.address, s.kind.name] := by
  have hkind : IsSolid s.kind.name.toList ∧ s.kind.name.toList ≠ [] := by
    cases s.kind <;> decide
  obtain ⟨haddress, hne, -⟩ := h.isSolid_address
  have hspace : isBlank ' ' = true := by decide
  rw [fields, toList_fileLine, fieldLists_append h.isSolid_name h.name_ne_nil (by simpa using hspace),
    fieldLists_cons_of_isBlank hspace, fieldLists_append haddress hne (by simpa using hspace),
    fieldLists_cons_of_isBlank hspace, fieldLists_of_isSolid hkind.1 hkind.2]
  simp

/-- A plain symbol shows itself if it is a variable whose name does not begin with a number sign, and
nothing else. -/
theorem shows_iff (h : s.IsPlain) {name text : String} : s.Shows name text ↔
    (s.kind = .var ∧ s.name.toList.head? ≠ some '#') ∧ name = s.name ∧ text = toString s.address := by
  have hhead : s.fileLine.toList.head? = s.name.toList.head? := by
    rw [toList_fileLine, List.head?_append_of_ne_nil _ h.name_ne_nil]
  have hkind : s.kind.name = "variable" ↔ s.kind = .var := by
    cases s.kind <;> decide
  simp only [Shows, h.lines_fileLine, List.mem_singleton, exists_eq_left, h.trim_fileLine, hhead,
    h.fields_fileLine, List.cons.injEq, hkind]
  constructor
  · rintro ⟨hsign, rest, rfl, rfl, hvar, -⟩
    exact ⟨⟨hvar, hsign⟩, rfl, rfl⟩
  · rintro ⟨⟨hvar, hsign⟩, rfl, rfl⟩
    exact ⟨hsign, [], rfl, rfl, hvar, rfl⟩

end IsPlain

end Symbol

/-! ### Files -/

namespace Program

variable {p : Program}

/-- The lines of a symbol file are the two comments and the lines of the symbols. -/
theorem lines_symbolText : lines p.symbolText =
    symbolFileHead ++ p.listedSymbols.flatMap fun s => lines s.fileLine := by
  have hhead : symbolFileHead.flatMap lines = symbolFileHead := by decide +kernel
  rw [symbolText, lines_closeLines_flatMap, List.flatMap_append, hhead, List.flatMap_map]
  -- Each line ends with a letter, so none of them is joined with the next one.
  intro l hl
  rcases List.mem_append.1 hl with hcomment | hsymbol
  · have hall : ∀ l ∈ symbolFileHead, l.toList ≠ [] ∧
        (l.toList.getLast?.all fun c => !isLineBreak c) = true := by decide +kernel
    obtain ⟨hne, hlast⟩ := hall l hcomment
    refine ⟨hne, fun c hc => ?_⟩
    rw [Option.mem_def.1 hc] at hlast
    simpa using hlast
  · obtain ⟨s, -, rfl⟩ := List.mem_map.1 hsymbol
    obtain ⟨c, hlast, hc⟩ := s.exists_getLast?_fileLine
    refine ⟨fun hnil => by simp [hnil] at hlast, fun d hd => ?_⟩
    obtain rfl : c = d := by simpa [hlast] using hd
    by_contra hbreak
    simp [isBlank_of_isLineBreak (by simpa using hbreak)] at hc

/-- The two comments name no address. -/
theorem variableOf?_symbolFileHead : ∀ line ∈ symbolFileHead, SymbolMap.variableOf? line = none := by
  decide +kernel

/-- A symbol file is read exactly if the addresses of all variables that its symbols show are
integers. -/
theorem exists_ofFileText_symbolText_iff : (∃ m, SymbolMap.ofFileText p.symbolText = .ok m) ↔
    ∀ s ∈ p.listedSymbols, ∀ name text, s.Shows name text → ∃ a, Numeral.readInt text = .ok a := by
  rw [SymbolMap.ofFileText, SymbolMap.exists_addLines_iff, lines_symbolText]
  constructor
  · intro h s hs name text hshows
    obtain ⟨line, hline, hentry⟩ := Symbol.shows_iff.1 hshows
    exact h line (List.mem_append_right _ (List.mem_flatMap.2 ⟨s, hs, hline⟩)) name text hentry
  · intro h line hline name text hentry
    rcases List.mem_append.1 hline with hcomment | hsymbol
    · simp [variableOf?_symbolFileHead line hcomment] at hentry
    · obtain ⟨s, hs, hline⟩ := List.mem_flatMap.1 hsymbol
      exact h s hs name text (Symbol.shows_iff.2 ⟨line, hline, hentry⟩)

/-- The first symbol decides that names an address. -/
theorem lookup_ofFileText_symbolText {m : SymbolMap}
    (h : SymbolMap.ofFileText p.symbolText = .ok m) (a : Int) :
    m.lookup a = (p.listedSymbols.flatMap fun s =>
      (lines s.fileLine).filterMap SymbolMap.pairOf?).lookup a := by
  have hhead : symbolFileHead.filterMap SymbolMap.pairOf? = [] := by
    rw [List.filterMap_eq_nil_iff]
    intro line hline
    rw [SymbolMap.pairOf?, variableOf?_symbolFileHead line hline]
    rfl
  rw [SymbolMap.lookup_addLines h, lines_symbolText, List.filterMap_append, hhead,
    List.filterMap_flatMap]
  rfl

/-- A name that is read for an address is shown by a symbol. -/
theorem exists_shows_of_lookup {m : SymbolMap} {a : Int} {name : String}
    (h : SymbolMap.ofFileText p.symbolText = .ok m) (hlookup : m.lookup a = some name) :
    ∃ s ∈ p.listedSymbols, ∃ text, s.Shows name text ∧ Numeral.readInt text = .ok a := by
  rw [lookup_ofFileText_symbolText h, List.lookup_eq_some_iff] at hlookup
  obtain ⟨before, after, hsplit, -⟩ := hlookup
  obtain ⟨s, hs, hmem⟩ := List.mem_flatMap.1 (hsplit ▸ List.mem_append_cons_self)
  obtain ⟨line, hline, hpair⟩ := List.mem_filterMap.1 hmem
  obtain ⟨text, hentry, hread⟩ := SymbolMap.pairOf?_eq_some_iff.1 hpair
  exact ⟨s, hs, text, Symbol.shows_iff.2 ⟨line, hline, hentry⟩, hread⟩

/-- An address that a symbol shows gets a name. -/
theorem isSome_lookup_of_shows {m : SymbolMap} {s : Symbol} {name text : String} {a : Int}
    (h : SymbolMap.ofFileText p.symbolText = .ok m) (hs : s ∈ p.listedSymbols)
    (hshows : s.Shows name text) (hread : Numeral.readInt text = .ok a) :
    (m.lookup a).isSome = true := by
  obtain ⟨line, hline, hentry⟩ := Symbol.shows_iff.1 hshows
  have hpair := SymbolMap.pairOf?_eq_some_iff.2 ⟨text, hentry, hread⟩
  rw [lookup_ofFileText_symbolText h, List.lookup_isSome_iff]
  exact ⟨(a, name), List.mem_flatMap.2 ⟨s, hs, List.mem_filterMap.2 ⟨line, hline, hpair⟩⟩, by simp⟩

end Program

end HackToolchain
