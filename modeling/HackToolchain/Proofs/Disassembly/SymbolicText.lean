import HackToolchain.Proofs.Disassembly.NormalForm
import HackToolchain.Proofs.Source.Numbering
import HackToolchain.Proofs.Source.Printing

/-!
# Symbolic texts

A map of symbols gives names to addresses. An address load is printed by name wherever the map has a
name for its address, whatever its operand was. If the map names the addresses of variables that are
served in order, the text that is printed is assembled again: it has no labels, its variables are the
names that are printed, and the free addresses go to them in the order in which they are loaded. So
the words come back exactly if this is the order of the map.
-/

namespace HackToolchain

open Text Denotation

variable {m : SymbolMap} {names : List String} {name file source : String} {w : Word} {t : String}
variable {words : List Word} {c : Command} {commands : List Command} {settings : Settings}
variable {program done rest statements : List Statement} {s : Statement}

namespace Disassembly

/-- The name of the address that a word loads. -/
def loadedName? (m : SymbolMap) (w : Word) : Option String :=
  if w.toList.head? = some '0' then m.lookup (Nat.ofDigitChars 2 w.toList 0 : Int) else none

/-- The names that some words load, in the order of their first load. -/
def loadedNames (m : SymbolMap) (words : List Word) : List String :=
  (words.filterMap (loadedName? m)).eraseDups

/-- The address of a variable when variables are served in the given order. -/
def servedAddress (names : List String) (name : String) : Int :=
  nthFree Machine.reserved Machine.variableBase (names.idxOf name)

/-- A word once the names that are loaded have got addresses in the order of their first load. -/
def reallocated (m : SymbolMap) (words : List Word) (w : Word) : Word :=
  match loadedName? m w with
  | some name => Word.ofNat (servedAddress (loadedNames m words) name).toNat
  | none => w

/-- The commands that are printed for words, with names for addresses. -/
inductive Symbolic (m : SymbolMap) : Word → Command → Prop where
  | named (n : Nat) (name : String) (small : n ≤ 32767) (lookup : m.lookup (n : Int) = some name) :
    Symbolic m (Word.ofNat n) (.addressLoad name)
  | numbered (n : Nat) (small : n ≤ 32767) (lookup : m.lookup (n : Int) = none) :
    Symbolic m (Word.ofNat n) (.addressLoad (toString n))
  | compute (fields : Fields) (w : Word) (encoded : fields.encode = .ok w) :
    Symbolic m w (.compute fields.bare)

theorem loadedName?_eq_some_iff : loadedName? m w = some name ↔
    w.toList.head? = some '0' ∧ m.lookup (Nat.ofDigitChars 2 w.toList 0 : Int) = some name := by
  rw [loadedName?, Option.ite_none_right_eq_some]

theorem mem_loadedNames_iff :
    name ∈ loadedNames m words ↔ ∃ w ∈ words, loadedName? m w = some name := by
  rw [loadedNames, List.mem_eraseDups, List.mem_filterMap]

/-! ### Printing -/

theorem loadedName?_ofNat {n : Nat} (h : n ≤ 32767) :
    loadedName? m (Word.ofNat n) = m.lookup (n : Int) := by
  obtain ⟨digits, hdigits, -⟩ := Word.exists_ofNat_eq_cons h
  rw [loadedName?, Word.value_ofNat, if_pos]
  rw [hdigits, List.head?_cons]

theorem loadedName?_of_encode {fields : Fields} (h : fields.encode = .ok w) :
    loadedName? m w = none := by
  rw [loadedName?, Fields.head?_of_encode h, if_neg (by decide)]

/-- A word has a symbolic text if it has a canonical one. -/
theorem Canonical.exists_symbolic (h : Canonical w t) (m : SymbolMap) : ∃ c, Symbolic m w c := by
  cases h with
  | address n small =>
    cases hlookup : m.lookup (n : Int) with
    | some name => exact ⟨_, .named n name small hlookup⟩
    | none => exact ⟨_, .numbered n small hlookup⟩
  | compute fields w encoded => exact ⟨_, .compute fields w encoded⟩

theorem exists_forall₂_symbolic {ls : List String} (h : List.Forall₂ Canonical words ls)
    (m : SymbolMap) : ∃ commands, List.Forall₂ (Symbolic m) words commands := by
  induction h with
  | nil => exact ⟨[], .nil⟩
  | cons hcanonical _ ih =>
    obtain ⟨c, hc⟩ := hcanonical.exists_symbolic m
    obtain ⟨commands, hcommands⟩ := ih
    exact ⟨c :: commands, .cons hc hcommands⟩

theorem Symbolic.isWord (h : Symbolic m w c) : isWord w = true := by
  cases h with
  | named n name small lookup => exact Word.isWord_ofNat small
  | numbered n small lookup => exact Word.isWord_ofNat small
  | compute fields w encoded => exact (Fields.isWord_of_encode encoded).1

/-- The text of the entry of a word is the line of its command. -/
theorem Symbolic.decodeWord (h : Symbolic m w c) (address : Int) :
    ∃ entry, decodeWord m w address = .ok entry ∧ entry.text = c.text := by
  cases h with
  | named n name small lookup => exact ⟨_, decodeWord_ofNat_of_named small lookup address, rfl⟩
  | numbered n small lookup => exact ⟨_, decodeWord_ofNat_of_unnamed small lookup address, rfl⟩
  | compute fields w encoded => exact ⟨_, decodeWord_of_encode encoded address, rfl⟩

theorem decodeFrom_of_symbolic (h : List.Forall₂ (Symbolic m) words commands) (address : Int) :
    ∃ entries, decodeFrom m address words = .ok entries ∧
      entries.map (·.text) = commands.map (·.text) := by
  obtain ⟨entries, hentries, hshown⟩ :=
    exists_decodeFrom_of_forall₂ (fun _ _ hsymbolic => hsymbolic.decodeWord) h.flip address
  refine ⟨entries, hentries, ?_⟩
  rw [← List.forall₂_eq_eq_eq, List.forall₂_map_left_iff, List.forall₂_map_right_iff]
  exact hshown.flip

theorem forall_isWord_of_symbolic (h : List.Forall₂ (Symbolic m) words commands) :
    ∀ w ∈ words, isWord w = true :=
  forall_mem_of_forall₂ h.flip fun _ _ hsymbolic => hsymbolic.isWord

/-- The symbolic text of some words is the lines of their commands, one below the other. -/
theorem sourceText_of_symbolic (h : List.Forall₂ (Symbolic m) words commands) :
    sourceText m words = .ok (joinLines (commands.map (·.text)) ++ "\n") := by
  have hselected := selected_of_isWord (forall_isWord_of_symbolic h)
  obtain ⟨entries, hentries, htexts⟩ := decodeFrom_of_symbolic h 0
  rw [sourceText, decodeWords_eq_decodeFrom, hselected, hentries]
  exact congrArg (fun ls => Except.ok (joinLines ls ++ "\n")) htexts

/-! ### Reading what is printed -/

/-- A map that names the addresses at which variables with the given names are served in order. -/
structure Names (m : SymbolMap) (names : List String) : Prop where
  nodup : names.Nodup
  lookup_iff : ∀ (a : Int) (name : String), m.lookup a = some name ↔
    name ∈ names ∧ servedAddress names name = a
  solid : ∀ name ∈ names, IsSolid name.toList ∧ name.toList ≠ []
  free : ∀ name ∈ names, Numeral.isLiteral name = false ∧ isPredefined name = false
  small : ∀ i < names.length, nthFree Machine.reserved Machine.variableBase i ≤ 32767

theorem Names.mem (hm : Names m names) {a : Int} (h : m.lookup a = some name) : name ∈ names :=
  ((hm.lookup_iff a name).1 h).1

/-- The line of a command that is printed for a word has no blanks. -/
theorem Symbolic.isSolid_text (hm : Names m names) (h : Symbolic m w c) : IsSolid c.text.toList := by
  cases h with
  | named n name small lookup =>
    rw [Command.text, String.toList_append, isSolid_append]
    exact ⟨by decide, (hm.solid name (hm.mem lookup)).1⟩
  | numbered n small lookup =>
    rw [Command.text, String.toList_append, isSolid_append]
    exact ⟨by decide, isSolid_toString⟩
  | compute fields w encoded =>
    rw [← Fields.encode_bare] at encoded
    exact Fields.isSolid_text encoded

theorem Symbolic.isPrintable (hm : Names m names) (h : Symbolic m w c) : c.IsPrintable := by
  have hsolid := h.isSolid_text hm
  cases h with
  | named n name small lookup =>
    obtain ⟨hname, hne⟩ := hm.solid name (hm.mem lookup)
    exact .addressLoad name hne hname
  | numbered n small lookup =>
    apply Command.IsPrintable.addressLoad _ _ isSolid_toString
    rw [toList_toString]
    exact Nat.toDigits_ne_nil
  | compute fields w encoded =>
    rw [← Fields.encode_bare] at encoded
    apply Command.IsPrintable.compute _ (Fields.wellFormed_of_encode encoded) hsolid
    obtain ⟨d, cs, htext, hstart⟩ := Fields.exists_text_eq_cons encoded
    rw [htext]
    rintro x ⟨⟩
    exact hstart

/-- The symbolic text of some words is read as the commands that are printed for them. -/
theorem ofText_of_symbolic (hm : Names m names) (h : List.Forall₂ (Symbolic m) words commands)
    (file : String) : Statement.ofText file (joinLines (commands.map (·.text)) ++ "\n") =
      .ok (Statement.printed file (commands.zipIdx 1)) := by
  have hsolid : ∀ l ∈ commands.map (·.text), IsSolid l.toList :=
    List.forall_mem_map.2 (forall_mem_of_forall₂ h fun _ _ hc => hc.isSolid_text hm)
  have hprintable : ∀ line ∈ commands.zipIdx 1, line.1.IsPrintable := by
    intro line hline
    have hmem : line.1 ∈ commands := List.fst_mem_of_mem_zipIdx hline
    exact forall_mem_of_forall₂ h (fun _ _ hc => hc.isPrintable hm) line.1 hmem
  rw [← Statement.ofLinesFrom_of_laysOut hprintable (Source.laysOut_map_text commands 1),
    Statement.ofText, Statement.ofLines, lines_joinLines hsolid]
  split
  · -- Without any word the text is one empty line, which holds no statement.
    next hnil =>
    rw [hnil]
    rfl
  · rfl

/-! ### Assembling what is printed -/

theorem servedAddress_nonneg (names : List String) (name : String) :
    0 ≤ servedAddress names name := by
  have hbase : Machine.variableBase ≤ servedAddress names name := base_le_nthFree _ _ _
  exact Int.le_trans (by decide) hbase

/-- A statement with the command that is printed for a word. -/
def Prints (m : SymbolMap) (w : Word) (s : Statement) : Prop :=
  ∃ c, Symbolic m w c ∧ s.command = c.placed

theorem forall₂_prints (h : List.Forall₂ (Symbolic m) words commands) (file : String) (n : Nat) :
    List.Forall₂ (Prints m) words (Statement.printed file (commands.zipIdx n)) := by
  induction h generalizing n with
  | nil => exact .nil
  | cons hsymbolic _ ih => exact .cons ⟨_, hsymbolic, rfl⟩ (ih (n + 1))

theorem labelNames_of_prints (h : List.Forall₂ (Prints m) words statements) :
    labelNames statements = [] := by
  have hnone (w : Word) (s : Statement) (hs : Prints m w s) : s.command.labelName? = none := by
    obtain ⟨c, hsymbolic, hs⟩ := hs
    rw [hs]
    cases hsymbolic <;> rfl
  exact List.filterMap_eq_nil_iff.2 (forall_mem_of_forall₂ h hnone)

theorem isVariable_of_labelNames (h : labelNames program = []) :
    isVariable program name = (!Numeral.isLiteral name && !isPredefined name) := by
  rw [isVariable, h]
  simp

theorem Names.isVariable_of_mem (hm : Names m names) (hlabels : labelNames program = [])
    (hname : name ∈ names) : isVariable program name = true := by
  obtain ⟨hliteral, hpredefined⟩ := hm.free name hname
  rw [isVariable_of_labelNames hlabels, hliteral, hpredefined]
  rfl

/-- Of the operands that are printed, the names are the variables. -/
theorem filter_operands_of_prints (hm : Names m names) (hlabels : labelNames program = [])
    (h : List.Forall₂ (Prints m) words statements) :
    (operands statements).filter (isVariable program) = words.filterMap (loadedName? m) := by
  induction h with
  | nil => rfl
  | @cons w s words statements hs _ ih =>
    obtain ⟨c, hsymbolic, hs⟩ := hs
    rw [operands] at ih ⊢
    rw [List.filterMap_cons, List.filterMap_cons, hs]
    cases hsymbolic with
    | named n name small lookup =>
      rw [loadedName?_ofNat small, lookup, ← ih]
      exact List.filter_cons_of_pos (hm.isVariable_of_mem hlabels (hm.mem lookup))
    | numbered n small lookup =>
      have hvariable : ¬ isVariable program (toString n) = true := by
        rw [isVariable_of_labelNames hlabels, Numeral.isLiteral_toString]
        simp
      rw [loadedName?_ofNat small, lookup, ← ih]
      exact List.filter_cons_of_neg hvariable
    | compute fields w encoded =>
      rw [loadedName?_of_encode encoded]
      exact ih

theorem variableNames_of_prints (hm : Names m names)
    (h : List.Forall₂ (Prints m) words statements) :
    variableNames statements = loadedNames m words :=
  congrArg List.eraseDups (filter_operands_of_prints hm (labelNames_of_prints h) h)

theorem nodup_eraseDups {α : Type} [BEq α] [LawfulBEq α] (l : List α) : l.eraseDups.Nodup := by
  -- What follows an element is taken from the others.
  induction hlength : l.length using Nat.strongRecOn generalizing l with
  | ind n ih =>
    cases l with
    | nil => simp
    | cons x xs =>
      rw [List.eraseDups_cons, List.nodup_cons]
      constructor
      · simp
      · apply ih _ _ _ rfl
        rw [← hlength, List.length_cons]
        exact Nat.lt_succ_of_le (List.length_filter_le _ _)

/-- The names that are loaded are served within the addresses of the map. -/
theorem Names.servedAddress_le (hm : Names m names) (hname : name ∈ loadedNames m words) :
    servedAddress (loadedNames m words) name ≤ 32767 := by
  have hsubset : loadedNames m words ⊆ names := by
    intro other hother
    obtain ⟨w, -, hloaded⟩ := mem_loadedNames_iff.1 hother
    exact hm.mem (loadedName?_eq_some_iff.1 hloaded).2
  -- No more names are loaded than the map has, so they are served before those run out.
  have hlength : (loadedNames m words).length ≤ names.length :=
    ((nodup_eraseDups _).subperm hsubset).length_le
  have hindex := List.idxOf_lt_length_of_mem hname
  exact hm.small _ (by omega)

/-- A statement that is printed for a word has the word with its name served again. -/
theorem Prints.word?_eq (hm : Names m names) (hlabels : labelNames program = [])
    (hvariables : variableNames program = loadedNames m words) (hw : w ∈ words)
    (h : Prints m w s) : word? .default program s = some (.ok (reallocated m words w)) := by
  obtain ⟨c, hsymbolic, hs⟩ := h
  rw [word?, hs, reallocated]
  cases hsymbolic with
  | named n name small lookup =>
    have hname := (loadedName?_ofNat small).trans lookup
    have hvariable := hm.isVariable_of_mem hlabels (hm.mem lookup)
    have haddress : addressOf .default program name = servedAddress (loadedNames m words) name := by
      rw [addressOf_of_isVariable hvariable, variableAddress, hvariables]
      rfl
    have hloaded := mem_loadedNames_iff.2 ⟨_, hw, hname⟩
    simp only [Command.placed, hname, haddress]
    refine congrArg some (Word.ofAddress_eq_ok_iff.2 ⟨⟨servedAddress_nonneg _ _, ?_⟩, rfl⟩)
    exact hm.servedAddress_le hloaded
  | numbered n small lookup =>
    have hname := (loadedName?_ofNat small).trans lookup
    have haddress : addressOf .default program (toString n) = (n : Int) := by
      rw [addressOf, Numeral.isLiteral_toString, if_pos rfl, toList_toString,
        Nat.ofDigitChars_ten_toDigits]
    simp only [Command.placed, hname, haddress, Word.ofAddress_default small]
  | compute fields w encoded =>
    have hencoded : fields.bare.placed.encode = .ok w := Fields.encode_bare.trans encoded
    simp only [Command.placed, loadedName?_of_encode encoded, hencoded]

/-- The literals that are printed are short. -/
theorem Prints.length_le (hm : Names m names) (h : Prints m w s) :
    ∀ operand ∈ s.command.operand?, Numeral.isLiteral operand = true →
      operand.toList.length ≤ Numeral.digitLimit := by
  obtain ⟨c, hsymbolic, hs⟩ := h
  rw [hs]
  cases hsymbolic with
  | named n name small lookup =>
    rintro operand ⟨⟩ hliteral
    simp [(hm.free name (hm.mem lookup)).1] at hliteral
  | numbered n small lookup =>
    rintro operand ⟨⟩ -
    rw [toList_toString]
    exact (Nat.length_toDigits_le_iff (by decide) (by decide)).2 (Numeral.lt_pow_digitLimit small)
  | compute fields w encoded => rintro operand ⟨⟩

theorem filterMap_of_forall₂ {α β γ : Type} {f : β → Option γ} {g : α → γ} {xs : List α}
    {ys : List β} (h : List.Forall₂ (fun x y => f y = some (g x)) xs ys) :
    ys.filterMap f = xs.map g := by
  induction h with
  | nil => rfl
  | cons hxy _ ih => rw [List.filterMap_cons_some hxy, List.map_cons, ih]

/-- A statement that has a word and no long literal can only fail as the first use of a variable, the
allocation of which is not announced. -/
theorem obstacle_of_fails (hword : ∀ cause, word? settings program s ≠ some (.error cause))
    (hshort : ∀ operand ∈ s.command.operand?, Numeral.isLiteral operand = true →
      operand.toList.length ≤ Numeral.digitLimit)
    (h : Fails settings program done s.location s.command) :
    ∃ operand, s.command = .addressLoad operand ∧ isFirstUse program done operand = true ∧
      Bindings.allocationObstacle? (addressOf settings program operand) s.location ≠ none := by
  rw [word?] at hword
  cases hs : s.command with
  | addressLoad operand =>
    rw [hs] at hword h hshort
    have haddress : 0 ≤ addressOf settings program operand ∧
        addressOf settings program operand ≤ Word.addressLimit settings.limit := by
      by_contra hrange
      apply hword
        (.addressRange (addressOf settings program operand) (Word.addressLimit settings.limit))
      simp only [Word.ofAddress, if_neg hrange]
    cases h with
    | longLiteral hlong =>
      obtain ⟨hliteral, hlong⟩ : Numeral.isLiteral operand = true ∧
          Numeral.digitLimit < operand.toList.length := by simpa [isLongLiteral] using hlong
      exact absurd (hshort operand rfl hliteral) (Nat.not_le.2 hlong)
    | negativeVariable hfirst hnegative => omega
    | unannouncedVariable hfirst hobstacle => exact ⟨operand, rfl, hfirst, by simp [hobstacle]⟩
    | beyondLimit hlimit => omega
  | compute fields =>
    rw [hs] at hword h
    cases h with
    | unknownMnemonic f hunknown =>
      cases hencode : fields.encode with
      | ok word =>
        exact absurd hunknown (Fields.unknown?_eq_none_iff.1 (Fields.unknown?_of_encode hencode) f)
      | error cause => exact absurd (by simp only [hencode]) (hword cause)
  | label name => rw [hs] at h; cases h
  | remark => rw [hs] at h; cases h

/-- A program without labels whose instructions have words is assembled to them, if no literal is too
long and all variables are announced. -/
theorem generate_of_words (hlabels : labelNames program = [])
    (hshort : ∀ operand ∈ operands program, Numeral.isLiteral operand = true →
      operand.toList.length ≤ Numeral.digitLimit)
    (hannounced : ∀ before s after operand, program = before ++ s :: after →
      s.command = .addressLoad operand → isFirstUse program before operand = true →
      Bindings.allocationObstacle? (addressOf settings program operand) s.location = none)
    (hwords : program.filterMap (word? settings program) = words.map Except.ok) :
    (generate settings program).result = .ok words := by
  have hdeclares : ∀ before s after name, program = before ++ s :: after →
      s.command ≠ .label name := by
    intro before s after name hsplit hs
    have hmem : name ∈ labelNames program := mem_labelNames_iff.2 ⟨s, by simp [hsplit], hs⟩
    simp [hlabels] at hmem
  have hfaultless : Faultless settings program program := by
    intro before s after hsplit hfails
    have hs : s ∈ program := by simp [hsplit]
    obtain ⟨operand, hload, hfirst, hobstacle⟩ := obstacle_of_fails
      (fun cause hcause => by
        have hmem : Except.error cause ∈ words.map Except.ok :=
          hwords ▸ List.mem_filterMap.2 ⟨s, hs, hcause⟩
        simp at hmem)
      (fun operand hoperand => hshort operand (List.mem_filterMap.2 ⟨s, hs, hoperand⟩)) hfails
    exact hobstacle (hannounced before s after operand hsplit hload hfirst)
  have hfault : (generate settings program).fault = none := by
    refine generate_fault_eq_none_iff.2 ⟨⟨?_, ?_⟩, hfaultless⟩
    · intro before s after name existing hsplit hs
      exact absurd hs (hdeclares before s after name hsplit)
    · intro before s after name hsplit hs
      exact absurd hs (hdeclares before s after name hsplit)
  have hresult := Run.result_eq_ok_iff.2 ⟨hfault, rfl⟩
  have hsame := (generate_of_result hresult).2
  rw [hwords] at hsame
  have hinjective : Function.Injective (Except.ok : Word → Except Cause Word) :=
    fun _ _ h => Except.ok.inj h
  rw [hresult, List.map_injective_iff.2 hinjective hsame]

/-- A word that loads a name is printed as an address load of it. -/
theorem Prints.command_eq (h : Prints m w s) (hname : loadedName? m w = some name) :
    s.command = .addressLoad name := by
  obtain ⟨c, hsymbolic, hs⟩ := h
  rw [hs]
  cases hsymbolic with
  | named n other small lookup =>
    rw [loadedName?_ofNat small, lookup] at hname
    rw [Option.some.inj hname]
    rfl
  | numbered n small lookup => simp [loadedName?_ofNat small, lookup] at hname
  | compute fields w encoded => simp [loadedName?_of_encode encoded] at hname

/-- A name stands among the operands of the statements behind the first word that loads it. -/
theorem length_le_of_prints {front back : List Word} {before : List Statement}
    (h : List.Forall₂ (Prints m) (front ++ w :: back) (before ++ s :: rest))
    (hname : loadedName? m w = some name) (hnew : name ∉ operands before) :
    before.length ≤ front.length := by
  by_contra hlong
  have hlong := Nat.not_le.1 hlong
  -- Otherwise the word is printed before.
  obtain ⟨-, hprints⟩ := List.forall₂_iff_get.1 h
  have hprint := hprints front.length (by simp) (by simp; omega)
  simp only [List.get_eq_getElem, List.getElem_append_right (Nat.le_refl front.length),
    Nat.sub_self, List.getElem_cons_zero, List.getElem_append_left hlong] at hprint
  exact hnew (mem_operands_iff.2 ⟨_, List.getElem_mem hlong, hprint.command_eq hname⟩)

/-- The statements of a printed program stand one below the other. -/
theorem location_of_printed {before : List Statement}
    (h : Statement.printed file (commands.zipIdx 1) = before ++ s :: rest) :
    s.location = ⟨file, (before.length + 1 : Nat), 1⟩ := by
  have hs : (Statement.printed file (commands.zipIdx 1))[before.length]? = some s := by
    rw [h]
    simp
  rw [Statement.printed, List.getElem?_map, List.getElem?_zipIdx, Option.map_map,
    Option.map_eq_some_iff] at hs
  obtain ⟨c, -, rfl⟩ := hs
  simp [Nat.add_comm]

/-- The symbolic text of some words is assembled to these words with their names served again, if each
name is loaded by a word whose number can be written. -/
theorem assemble_of_symbolic (hm : Names m names) (h : List.Forall₂ (Symbolic m) words commands)
    (hnumbers : ∀ name ∈ loadedNames m words, ∃ front w back, words = front ++ w :: back ∧
      loadedName? m w = some name ∧ Numeral.isWritable (front.length + 1 : Nat) = true)
    (file : String) : assemble file (joinLines (commands.map (·.text)) ++ "\n") =
      .ok (words.map (reallocated m words)) := by
  have hprints := forall₂_prints h file 1
  have hlabels := labelNames_of_prints hprints
  have hvariables := variableNames_of_prints hm hprints
  refine assemble_eq_ok_iff.2 ⟨_, ofText_of_symbolic hm h file, generate_of_words hlabels ?_ ?_ ?_⟩
  · intro operand hoperand
    obtain ⟨s, hs, hload⟩ := List.mem_filterMap.1 hoperand
    exact forall_mem_of_forall₂ hprints (fun _ _ hprinted => hprinted.length_le hm) s hs operand hload
  · intro before s after operand hsplit hload hfirst
    obtain ⟨hvariable, hnew⟩ := isFirstUse_eq_true_iff.1 hfirst
    have hoperand : operand ∈ operands (Statement.printed file (commands.zipIdx 1)) :=
      mem_operands_iff.2 ⟨s, by simp [hsplit], hload⟩
    have hname : operand ∈ loadedNames m words :=
      hvariables ▸ mem_usedVariables_iff.2 ⟨hoperand, hvariable⟩
    obtain ⟨front, w, back, hwords, hloaded, hnumber⟩ := hnumbers operand hname
    -- The first use of the name is not behind the word.
    have hline := length_le_of_prints (hwords ▸ hsplit ▸ hprints) hloaded hnew
    have haddress : addressOf .default (Statement.printed file (commands.zipIdx 1)) operand =
        servedAddress (loadedNames m words) operand := by
      rw [addressOf_of_isVariable hvariable, variableAddress, hvariables]
      rfl
    rw [Bindings.allocationObstacle?_eq_none_iff, haddress, location_of_printed hsplit]
    refine ⟨?_, Numeral.isWritable_of_le (Nat.succ_le_succ hline) hnumber, ?_⟩
    · have hlow := servedAddress_nonneg (loadedNames m words) operand
      have hhigh := hm.servedAddress_le hname
      rw [Numeral.isWritable_iff]
      exact Numeral.lt_pow_digitLimit (by omega)
    · have hone : Numeral.isWritable 1 = true := by decide
      exact hone
  · rw [List.map_map]
    apply filterMap_of_forall₂
    -- Each word is one of those whose names are served.
    have hmem := (List.forall₂_and_left words _).2 ⟨fun _ hw => hw, hprints⟩
    exact hmem.imp fun w s hs => hs.2.word?_eq hm hlabels hvariables hs.1

/-! ### Words that come back -/

/-- A word that loads a name loads the address at which the name is served. -/
theorem Names.eq_ofNat (hm : Names m names) (hw : isWord w = true)
    (hname : loadedName? m w = some name) :
    name ∈ names ∧ w = Word.ofNat (servedAddress names name).toNat := by
  obtain ⟨hhead, hlookup⟩ := loadedName?_eq_some_iff.1 hname
  obtain ⟨hmem, haddress⟩ := (hm.lookup_iff _ _).1 hlookup
  refine ⟨hmem, ?_⟩
  rw [haddress, Int.toNat_natCast, (Word.ofNat_value hw hhead).2]

theorem ofNat_servedAddress_eq_iff {others : List String} :
    Word.ofNat (servedAddress names name).toNat = Word.ofNat (servedAddress others name).toNat ↔
      names.idxOf name = others.idxOf name := by
  constructor
  · intro h
    -- A word has the value of its address, and no free address is handed out twice.
    have hvalue := congrArg (fun w : Word => Nat.ofDigitChars 2 w.toList 0) h
    simp only [Word.value_ofNat] at hvalue
    have hleft := servedAddress_nonneg names name
    have hright := servedAddress_nonneg others name
    have haddress : servedAddress names name = servedAddress others name := by omega
    exact nthFree_injective haddress
  · intro h
    rw [servedAddress, servedAddress, h]

/-- Lists without repetitions are equal if their members stand in the same places. -/
theorem eq_of_idxOf_eq {α : Type} [BEq α] [LawfulBEq α] {xs ys : List α} (hxs : xs.Nodup)
    (hys : ys.Nodup) (hmem : ∀ x, x ∈ xs ↔ x ∈ ys) (h : ∀ x ∈ xs, xs.idxOf x = ys.idxOf x) :
    xs = ys := by
  have hlength : xs.length = ys.length := ((List.perm_ext_iff_of_nodup hxs hys).2 hmem).length_eq
  apply List.ext_getElem hlength
  intro i hi hi'
  have hplace : ys.idxOf xs[i] = i := by
    rw [← h _ (List.getElem_mem hi), hxs.idxOf_getElem i hi]
  have hmember : xs[i] ∈ ys := (hmem _).1 (List.getElem_mem hi)
  have hfound := List.getElem_idxOf (List.idxOf_lt_length_of_mem hmember)
  simp only [hplace] at hfound
  exact hfound.symm

/-- If every name is loaded, the words stay as they are exactly if the names are loaded in order. -/
theorem map_reallocated_eq_iff (hm : Names m names) (hwords : ∀ w ∈ words, isWord w = true)
    (hloaded : ∀ name ∈ names, ∃ w ∈ words, loadedName? m w = some name) :
    words.map (reallocated m words) = words ↔ loadedNames m words = names := by
  have hstays {w : Word} {name : String} (hw : w ∈ words) (hname : loadedName? m w = some name) :
      reallocated m words w = w ↔ (loadedNames m words).idxOf name = names.idxOf name := by
    rw [← ofNat_servedAddress_eq_iff, ← (hm.eq_ofNat (hwords w hw) hname).2, reallocated, hname]
  have hsame : words.map (reallocated m words) = words ↔ ∀ w ∈ words, reallocated m words w = w := by
    simpa using List.map_inj_left (f := reallocated m words) (g := id) (l := words)
  -- A word comes back if its name has the same place in both orders.
  rw [hsame]
  constructor
  · intro h
    -- The same names are in both lists, since every name of the map is loaded.
    have hnodup : (loadedNames m words).Nodup := nodup_eraseDups _
    apply eq_of_idxOf_eq hnodup hm.nodup
    · intro name
      rw [mem_loadedNames_iff]
      constructor
      · rintro ⟨w, hw, hname⟩
        exact (hm.eq_ofNat (hwords w hw) hname).1
      · exact hloaded name
    · intro name hmem
      obtain ⟨w, hw, hname⟩ := mem_loadedNames_iff.1 hmem
      exact (hstays hw hname).1 (h w hw)
  · intro h w hw
    cases hname : loadedName? m w with
    | none => rw [reallocated, hname]
    | some name => exact (hstays hw hname).2 (by rw [h])

end Disassembly

end HackToolchain
