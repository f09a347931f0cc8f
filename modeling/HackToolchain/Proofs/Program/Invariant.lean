import HackToolchain.Proofs.Program.Agreement
import HackToolchain.Proofs.Program.EarlyEnd

/-!
# What a generator always holds

A run may end anywhere: in the first pass, in the middle of an operand, or with all words at hand.
What the generator holds by then still fits together. The predefined symbols come first, the
variables of the table are those that the allocator has served, and the words are those of the
listing.

Both passes only add to what is at hand. The first one adds labels of the instructions that it has
counted. The second one binds every address that it takes, since no address from a base of zero or
more is refused, so even an instruction that fails leaves no address without its variable.

Labels are bound while instructions are still being counted. A conflict ends the first pass with a
diagnostic, and then all is dropped; but if the diagnostic cannot be written, the labels stay and the
instructions are not counted.
-/

namespace HackToolchain

open Denotation Text

variable {settings : Settings} {statements : List Statement} {s : Symbol}
variable {t t' : SymbolTable} {b : Bindings} {base : Int} {m n address : Nat}

/-! ### The first pass -/

namespace SymbolTable

/-- A table of the predefined symbols and of labels behind at most `n` instructions. -/
def HoldsLabels (t : SymbolTable) (n : Nat) : Prop :=
  ∃ labels, t.entries = initial.entries ++ labels ∧
    ∀ label ∈ labels, label.kind = .label ∧ label.address ≤ n

theorem holdsLabels_initial : initial.HoldsLabels n :=
  ⟨[], by simp, by simp⟩

theorem HoldsLabels.mono (ht : t.HoldsLabels m) (h : m ≤ n) : t.HoldsLabels n := by
  obtain ⟨labels, hentries, hlabels⟩ := ht
  refine ⟨labels, hentries, fun label hlabel => ⟨(hlabels label hlabel).1, ?_⟩⟩
  have := (hlabels label hlabel).2
  omega

/-- A label is bound to the number of instructions before it, or not at all. -/
theorem HoldsLabels.bind {memory : Int} {sourceLine : Option String} (ht : t.HoldsLabels n)
    (hkind : s.kind = .label) (haddress : s.address = n) :
    (t.bind memory s sourceLine).1.HoldsLabels n := by
  cases hfind : t.find? s.name with
  | some existing => rwa [bind_of_find?_eq_some hfind]
  | none =>
    obtain ⟨labels, hentries, hlabels⟩ := ht
    rw [bind_of_find?_eq_none hfind]
    split
    · exact ⟨labels, hentries, hlabels⟩
    · refine ⟨labels ++ [s], by rw [hentries, List.append_assoc], fun label hlabel => ?_⟩
      rcases List.mem_append.1 hlabel with hold | hnew
      · exact hlabels label hold
      · obtain rfl := List.mem_singleton.1 hnew
        exact ⟨hkind, by omega⟩

end SymbolTable

/-- The labels that the first pass has bound stand behind instructions that it has counted, however
it has ended. -/
theorem holdsLabels_bindLabels (ht : t.HoldsLabels n) (statements : List Statement) :
    (bindLabels t n statements).symbols.HoldsLabels (bindLabels t n statements).count := by
  induction statements generalizing t n with
  | nil => exact ht
  | cons s rest ih =>
    cases hlabel : s.command.labelName? with
    | none =>
      rw [bindLabels_cons_of_labelName? hlabel]
      exact ih (ht.mono (Nat.le_add_right n _))
    | some name =>
      simp only [bindLabels, Command.labelName?_eq_some_iff.1 hlabel]
      have hbound : (t.bind ampleMemory ⟨name, n, .label, some s.location⟩
          (some s.source)).1.HoldsLabels n := ht.bind rfl rfl
      -- A label that fails ends the pass and leaves the count as it is.
      cases hbind : t.bind ampleMemory ⟨name, n, .label, some s.location⟩ (some s.source) with
      | mk bound result =>
        rw [hbind] at hbound
        cases result with
        | ok => exact ih hbound
        | error i => exact hbound

/-! ### The second pass -/

namespace Bindings

/-- A state that adds variables to a table: those that its allocator has served. -/
structure Extends (base : Int) (t : SymbolTable) (vars : List Symbol) (b : Bindings) : Prop where
  entries_eq : b.symbols.entries = t.entries ++ vars
  kind_eq : ∀ s ∈ vars, s.kind = .var
  allocated_eq : b.allocator.allocated = vars.map (·.address)
  served : b.allocator.Served Machine.reserved base vars.length

variable {vars : List Symbol}

theorem extends_start (base : Int) (t : SymbolTable) :
    Extends base t [] ⟨t, .ofBase base Machine.reserved⟩ where
  entries_eq := by simp
  kind_eq := by simp
  allocated_eq := rfl
  served := Allocator.served_ofBase _ _

/-- No free address from the base on is negative. -/
theorem Extends.next_nonneg (hb : b.Extends base t vars) (hbase : 0 ≤ base) :
    0 ≤ b.allocator.next := by
  rw [hb.served.next_eq]
  exact Int.le_trans hbase (base_le_nthFree Machine.reserved base vars.length)

/-- A variable with the next address is one more that is served. -/
theorem Extends.append (hb : b.Extends base t vars) (hkind : s.kind = .var)
    (haddress : s.address = b.allocator.next) :
    Extends base t (vars ++ [s]) ⟨⟨b.symbols.entries ++ [s]⟩, b.allocator.allocate.2⟩ where
  entries_eq := by rw [hb.entries_eq, List.append_assoc]
  kind_eq := by
    intro other hother
    rcases List.mem_append.1 hother with hold | hnew
    · exact hb.kind_eq other hold
    · rw [List.mem_singleton.1 hnew, hkind]
  allocated_eq := by
    rw [Allocator.allocated_allocate, hb.allocated_eq, List.map_append, List.map_singleton, haddress]
  served := by
    rw [List.length_append]
    exact hb.served.allocate

/-- An operand that is a new name adds a variable, and any other one adds none. -/
theorem Extends.resolve (hb : b.Extends base t vars) (hbase : 0 ≤ base) (location : Location)
    (source operand : String) :
    ∃ all, (b.resolve location source operand).1.Extends base t all := by
  cases hliteral : Text.Numeral.isLiteral operand with
  | true =>
    rw [resolve_of_isLiteral hliteral]
    exact ⟨vars, hb⟩
  | false =>
    cases hbound : b.symbols.contains operand with
    | true =>
      rw [resolve_of_contains hliteral hbound]
      exact ⟨vars, hb⟩
    | false =>
      -- The address is not negative, so it is not taken without being bound.
      rw [resolve_of_not_contains hliteral hbound, if_neg (Int.not_lt.2 (hb.next_nonneg hbase))]
      exact ⟨_, hb.append rfl rfl⟩

/-- A statement adds at most a variable, also if it fails. -/
theorem Extends.encode (hb : b.Extends base t vars) (hbase : 0 ≤ base) (settings : Settings)
    (s : Statement) : ∃ all, (b.encode settings s).1.Extends base t all := by
  rw [Bindings.encode]
  cases s.command with
  | addressLoad operand =>
    obtain ⟨all, hall⟩ := hb.resolve hbase s.location s.source operand
    refine ⟨all, ?_⟩
    simp only
    cases hresolve : b.resolve s.location s.source operand with
    | mk bound result =>
      rw [hresolve] at hall
      cases result <;> exact hall
  | compute fields => exact ⟨vars, hb⟩
  | label name => exact ⟨vars, hb⟩
  | remark => exact ⟨vars, hb⟩

/-- The second pass adds variables, however it ends. -/
theorem Extends.emit (hb : b.Extends base t vars) (hbase : 0 ≤ base) (settings : Settings)
    (address : Nat) (statements : List Statement) :
    ∃ all, (HackToolchain.emit settings b address statements).bindings.Extends base t all := by
  -- The variables at hand grow with the statements; where the pass ends, they are what is left.
  induction statements generalizing b vars address with
  | nil => exact ⟨vars, hb⟩
  | cons s rest ih =>
    obtain ⟨all, hall⟩ := hb.encode hbase settings s
    rw [HackToolchain.emit]
    cases hencode : b.encode settings s with
    | mk bound result =>
      rw [hencode] at hall
      cases result with
      | error i => exact ⟨all, hall⟩
      | ok word => exact ih hall _

end Bindings

/-- The second pass has no more words than there are instructions. -/
theorem length_words_emit_le :
    ((emit settings b address statements).listing.filterMap (·.word)).length ≤
      instructionCount statements := by
  induction statements generalizing b address with
  | nil => simp [emit]
  | cons s rest ih =>
    rw [emit]
    cases hencode : b.encode settings s with
    | mk bound result =>
      cases result with
      | error i => simp
      | ok word =>
        -- The head has a word exactly if it is counted.
        rw [filterMap_word_cons, List.length_append, instructionCount_cons,
          ← Bindings.isSome_of_encode hencode, Option.length_toList]
        exact Nat.add_le_add_left ih _

/-! ### Symbols by kind -/

namespace SymbolTable

theorem ofKind_of_forall_eq {symbols : List Symbol} {kind : SymbolKind}
    (h : ∀ s ∈ symbols, s.kind = kind) : ofKind ⟨symbols⟩ (some kind) = symbols :=
  List.filter_eq_self.2 fun s hs => by simp [h s hs]

theorem ofKind_of_forall_ne {symbols : List Symbol} {kind : SymbolKind}
    (h : ∀ s ∈ symbols, s.kind ≠ kind) : ofKind ⟨symbols⟩ (some kind) = [] :=
  List.filter_eq_nil_iff.2 fun s hs => by simpa using (h s hs).symm

theorem ofKind_append (first second : List Symbol) (kind : Option SymbolKind) :
    ofKind ⟨first ++ second⟩ kind = ofKind ⟨first⟩ kind ++ ofKind ⟨second⟩ kind :=
  List.filter_append first second

theorem kind_of_mem_initial (h : s ∈ initial.entries) : s.kind = .predefined := by
  obtain ⟨entry, -, rfl⟩ := List.mem_map.1 h
  rfl

/-- The labels and the variables of a table that holds predefined symbols, labels and variables. -/
theorem ofKind_of_entries {labels vars : List Symbol}
    (hentries : t.entries = initial.entries ++ (labels ++ vars))
    (hlabels : ∀ s ∈ labels, s.kind = .label) (hvars : ∀ s ∈ vars, s.kind = .var) :
    t.ofKind (some .label) = labels ∧ t.ofKind (some .var) = vars := by
  -- Each of the three parts has one kind only.
  have hsplit (kind : SymbolKind) (hkind : kind ≠ .predefined) : t.ofKind (some kind) =
      ofKind ⟨labels⟩ (some kind) ++ ofKind ⟨vars⟩ (some kind) := by
    have hinitial : ofKind ⟨initial.entries⟩ (some kind) = [] :=
      ofKind_of_forall_ne fun s hs => by
        rw [kind_of_mem_initial hs]
        exact hkind.symm
    rw [show t = ⟨initial.entries ++ (labels ++ vars)⟩ from congrArg mk hentries, ofKind_append,
      hinitial, List.nil_append, ofKind_append]
  constructor
  · rw [hsplit .label (by decide), ofKind_of_forall_eq hlabels,
      ofKind_of_forall_ne fun s hs => by simp [hvars s hs], List.append_nil]
  · rw [hsplit .var (by decide), ofKind_of_forall_eq hvars,
      ofKind_of_forall_ne fun s hs => by simp [hlabels s hs], List.nil_append]

end SymbolTable

/-! ### Programs -/

/-- A program of which the parts fit together: its table begins with the predefined symbols, its
variables have the addresses that the allocator has handed out, in the same order, these ascend from
the base on and leave out the reserved ones, and no more words are listed than instructions are
counted. -/
structure Program.Coherent (base : Int) (p : Program) : Prop where
  initial_prefix : SymbolTable.initial.entries <+: p.symbols.entries
  addresses_eq : (p.symbols.ofKind (some .var)).map (·.address) = p.variableAddresses
  ascending : p.variableAddresses.Pairwise (· < ·)
  base_le : ∀ a ∈ p.variableAddresses, base ≤ a
  notMem_reserved : ∀ a ∈ p.variableAddresses, a ∉ Machine.reserved
  length_words_le : p.words.length ≤ p.instructionCount

/-- The labels of a program stand behind instructions that are counted. -/
def Program.LabelsCounted (p : Program) : Prop :=
  ∀ s ∈ p.symbols.ofKind (some .label), s.address ≤ p.instructionCount

namespace Program

variable {p : Program} {vars : List Symbol}

/-- A table of predefined symbols, labels and variables that were served makes a program coherent. -/
theorem coherent_of_extends (ht : t.HoldsLabels n)
    (hb : Bindings.Extends base t vars ⟨p.symbols, p.allocator⟩)
    (hwords : p.words.length ≤ p.instructionCount) : p.Coherent base := by
  obtain ⟨labels, hentries, hlabels⟩ := ht
  have hsymbols : p.symbols.entries = SymbolTable.initial.entries ++ (labels ++ vars) := by
    rw [hb.entries_eq, hentries, List.append_assoc]
  have hvars := (SymbolTable.ofKind_of_entries hsymbols (fun s hs => (hlabels s hs).1) hb.kind_eq).2
  exact {
    initial_prefix := ⟨labels ++ vars, hsymbols.symm⟩
    addresses_eq := by rw [hvars]; exact hb.allocated_eq.symm
    ascending := hb.served.pairwise_allocated
    base_le := fun a ha => (hb.served.of_mem_allocated ha).1
    notMem_reserved := fun a ha => (hb.served.of_mem_allocated ha).2
    length_words_le := hwords }

/-- Variables that were served are no labels. -/
theorem labelsCounted_of_extends (ht : t.HoldsLabels p.instructionCount)
    (hb : Bindings.Extends base t vars ⟨p.symbols, p.allocator⟩) : p.LabelsCounted := by
  obtain ⟨labels, hentries, hlabels⟩ := ht
  have hsymbols : p.symbols.entries = SymbolTable.initial.entries ++ (labels ++ vars) := by
    rw [hb.entries_eq, hentries, List.append_assoc]
  intro s hs
  rw [(SymbolTable.ofKind_of_entries hsymbols (fun s hs => (hlabels s hs).1) hb.kind_eq).1] at hs
  exact (hlabels s hs).2

end Program

/-! ### Runs -/

theorem Program.coherent_empty (settings : Settings) :
    (Program.empty settings).Coherent settings.variableBase :=
  coherent_of_extends (n := 0) SymbolTable.holdsLabels_initial
    (Bindings.extends_start settings.variableBase .initial) (Nat.zero_le 0)

theorem Program.labelsCounted_empty (settings : Settings) : (Program.empty settings).LabelsCounted :=
  labelsCounted_of_extends SymbolTable.holdsLabels_initial
    (Bindings.extends_start settings.variableBase .initial)

/-- What a run has produced is coherent, however it has ended. -/
theorem coherent_generate (hbase : 0 ≤ settings.variableBase) :
    (generate settings statements).program.Coherent settings.variableBase := by
  have hlabels := holdsLabels_bindLabels (SymbolTable.holdsLabels_initial (n := 0)) statements
  rw [generate]
  cases hfault : (bindLabels .initial 0 statements).fault with
  | some fault =>
    exact Program.coherent_of_extends hlabels (Bindings.extends_start _ _) (Nat.zero_le 0)
  | none =>
    obtain ⟨vars, hvars⟩ := (Bindings.extends_start _ _).emit hbase settings 0 statements
    refine Program.coherent_of_extends hlabels hvars ?_
    -- The first pass has come to its end, so its count is that of all instructions.
    simp only [bindLabels_initial hfault]
    exact length_words_emit_le

/-- A run that has come to its second pass has counted the instructions before its labels. -/
theorem labelsCounted_generate (hbase : 0 ≤ settings.variableBase)
    (hlabels : (bindLabels .initial 0 statements).fault = none) :
    (generate settings statements).program.LabelsCounted := by
  obtain ⟨vars, hvars⟩ := (Bindings.extends_start _ _).emit hbase settings 0 statements
  simp only [generate, hlabels]
  exact Program.labelsCounted_of_extends
    (holdsLabels_bindLabels SymbolTable.holdsLabels_initial statements) hvars

namespace Run

/-- What a run leaves behind is coherent. -/
theorem coherent_kept (hbase : 0 ≤ settings.variableBase) :
    ((generate settings statements).kept settings).Coherent settings.variableBase := by
  rw [kept]
  split
  · exact Program.coherent_empty settings
  · exact coherent_generate hbase

/-- A run that is broken off while labels are bound: no diagnostic has ended it, so the labels stay,
and the instructions have not been counted. -/
def LosesCount (r : Run) : Prop :=
  r.labelled = false ∧ ∀ d, r.fault ≠ some (.diagnosed d)

/-- What a run leaves behind has its labels counted, unless it is broken off while labels are bound.
-/
theorem labelsCounted_kept (hbase : 0 ≤ settings.variableBase)
    (h : ¬ (generate settings statements).LosesCount) :
    ((generate settings statements).kept settings).LabelsCounted := by
  cases hlabels : (bindLabels .initial 0 statements).fault with
  | some i =>
    have hlabelled : (generate settings statements).labelled = false := by
      simp only [generate, hlabels]
    -- Nothing is kept of a first pass that is ended by a diagnostic.
    obtain ⟨d, hd⟩ : ∃ d, (generate settings statements).fault = some (.diagnosed d) := by
      simpa [LosesCount, hlabelled] using h
    simp only [kept, hd]
    exact Program.labelsCounted_empty settings
  | none =>
    rw [kept]
    split
    · exact Program.labelsCounted_empty settings
    · exact labelsCounted_generate hbase hlabels

/-- A run that loses its count leaves no words. -/
theorem kept_of_losesCount (h : (generate settings statements).LosesCount) :
    ((generate settings statements).kept settings).instructionCount = 0 ∧
      ((generate settings statements).kept settings).words = [] := by
  obtain ⟨hlabelled, hfault⟩ := h
  have hkept : (generate settings statements).kept settings =
      (generate settings statements).program := by
    rw [kept]
    split
    · next d hd => exact absurd hd (hfault d)
    · rfl
  rw [hkept]
  cases hlabels : (bindLabels .initial 0 statements).fault with
  | some i => simp [generate, hlabels, Program.words]
  | none => simp [generate, hlabels] at hlabelled

end Run

/-! ### Histories -/

namespace Generator

variable {held : Settings × List Statement} {g : Generator} {history : List Request}

/-- A run does not change the settings. -/
theorem settings_generate (g : Generator) (statements : List Statement) :
    (g.generate statements).1.settings = g.settings := by
  rw [generate_eq]
  rfl

/-- The last run of a history, by its settings and its statements, for a generator that has some
settings and holds what the run `held` has left. -/
def lastRun (held : Settings × List Statement) (settings : Settings) :
    List Request → Settings × List Statement
  | [] => held
  | .configure settings :: rest => lastRun held settings rest
  | .generate statements :: rest => lastRun (settings, statements) settings rest

/-- A generator holds what its last run has left. -/
theorem program_after (held : Settings × List Statement)
    (h : g.program = (HackToolchain.generate held.1 held.2).kept held.1)
    (history : List Request) :
    let last := lastRun held g.settings history
    (g.after history).program = (HackToolchain.generate last.1 last.2).kept last.1 := by
  -- A run replaces what is held, and a change of the settings leaves it.
  induction history generalizing g held with
  | nil => exact h
  | cons request rest ih =>
    cases request with
    | configure settings => exact ih (g := g.perform (.configure settings)) held h
    | generate statements =>
      have hrest := ih (g.settings, statements) (program_generate g statements)
      rwa [settings_generate] at hrest

/-- What holds of all settings that a generator had holds of those of its last run. -/
theorem of_lastRun {P : Settings → Prop} (hheld : P held.1) (hsettings : P settings)
    (hconfigured : ∀ s, .configure s ∈ history → P s) : P (lastRun held settings history).1 := by
  induction history generalizing held settings with
  | nil => exact hheld
  | cons request rest ih =>
    have hrest : ∀ s, .configure s ∈ rest → P s :=
      fun s hs => hconfigured s (List.mem_cons_of_mem request hs)
    cases request with
    | configure settings => exact ih hheld (hconfigured settings List.mem_cons_self) hrest
    | generate statements => exact ih hsettings hsettings hrest

/-- A generator whose settings never have a negative base holds parts that fit together, however its
runs have ended. The table begins with the predefined symbols; its variables have, in binding order,
the addresses that were allocated, and these ascend from the base of the last run on and leave out
the screen and the keyboard, so no address is shared. The words are those of the listing, and there
are no more of them than instructions are counted. No label stands behind more instructions than are
counted, unless the last run was broken off while labels were bound; then none are counted. -/
theorem coherent_after (hbase : 0 ≤ settings.variableBase)
    (hconfigured : ∀ s, .configure s ∈ history → 0 ≤ s.variableBase) :
    let g := (start settings).after history
    let last := lastRun (settings, []) settings history
    let run := HackToolchain.generate last.1 last.2
    g.program.Coherent last.1.variableBase ∧
    (g.symbols.ofKind (some .var)).Pairwise (·.address ≠ ·.address) ∧
    g.words = g.listing.filterMap (·.word) ∧
    (¬ run.LosesCount → g.program.LabelsCounted) ∧
    (run.LosesCount → g.instructionCount = 0 ∧ g.words = []) := by
  intro g last run
  have hlast : 0 ≤ last.1.variableBase := of_lastRun hbase hbase hconfigured
  have hheld : g.program = run.kept last.1 := program_after (settings, []) rfl history
  have hwords : g.words = g.program.words := words_after rfl history
  have hcoherent : g.program.Coherent last.1.variableBase := by
    rw [hheld]
    exact Run.coherent_kept hlast
  refine ⟨hcoherent, ?_, hwords, ?_, ?_⟩
  · have hdistinct : g.program.variableAddresses.Pairwise (· ≠ ·) :=
      hcoherent.ascending.imp Int.ne_of_lt
    rw [← hcoherent.addresses_eq] at hdistinct
    exact List.pairwise_map.1 hdistinct
  · intro hcount
    rw [hheld]
    exact Run.labelsCounted_kept hlast hcount
  · intro hloses
    obtain ⟨hcount, hnone⟩ := Run.kept_of_losesCount hloses
    rw [hwords, hheld]
    exact ⟨(congrArg Program.instructionCount hheld).trans hcount, hnone⟩

/-- Settings by which the first variable would stand where the screen does. -/
def screenSettings : Settings :=
  { Settings.default with variableBase := 16384 }

/-- A history that ends with a run that is broken off, and then with other settings. -/
def screenHistory : List Request :=
  [.configure screenSettings, .generate (variableThenLiteral longLiteral), .configure .default]

theorem coherent_after_screenHistory :
    let g := (start .default).after screenHistory
    0 ≤ Settings.default.variableBase ∧
      (∀ s, .configure s ∈ screenHistory → 0 ≤ s.variableBase) ∧
      g.program.variableAddresses = [16385] ∧ g.program.Coherent 16384 ∧
      g.words = g.listing.filterMap (·.word) ∧ g.program.LabelsCounted := by
  intro g
  have hconfigured : ∀ s, .configure s ∈ screenHistory → 0 ≤ s.variableBase := by
    intro s hs
    obtain rfl | rfl : s = screenSettings ∨ s = .default := by simpa [screenHistory] using hs
    · decide
    · decide
  -- The address of the screen is passed over.
  have hfirst : Bindings.encode screenSettings ⟨.initial, .ofBase 16384 Machine.reserved⟩
      ⟨⟨"a.asm", 1, 1⟩, "@x", .addressLoad "x"⟩ =
        (⟨⟨SymbolTable.initial.entries ++ [⟨"x", 16385, .var, some ⟨"a.asm", 1, 1⟩⟩]⟩,
          ⟨16386, Machine.reserved, [16385]⟩⟩, .ok (some "0100000000000001")) := rfl
  have hrun := generate_variableThenLiteral isLiteral_longLiteral lt_length_longLiteral hfirst
  have hlast : lastRun (Settings.default, []) .default screenHistory =
      (screenSettings, variableThenLiteral longLiteral) := rfl
  have hbase : 0 ≤ Settings.default.variableBase := by decide
  obtain ⟨hcoherent, -, hwords, hlabels, -⟩ := coherent_after hbase hconfigured
  refine ⟨hbase, hconfigured, ?_, hcoherent, hwords, hlabels fun hloses => ?_⟩
  · have hprogram := program_after (g := start .default) (.default, []) rfl screenHistory
    simp only [start, hlast, hrun] at hprogram
    exact congrArg Program.variableAddresses hprogram
  · rw [hlast, hrun] at hloses
    exact absurd hloses.1 Bool.noConfusion

/-- Declares a label twice behind different numbers of instructions, the second time at a given
place. -/
def declaredAgain (place : Location) : List Statement :=
  [⟨⟨"a.asm", 1, 1⟩, "@0", .addressLoad "0"⟩, ⟨⟨"a.asm", 2, 1⟩, "(A)", .label "A"⟩,
    ⟨⟨"a.asm", 3, 1⟩, "@0", .addressLoad "0"⟩, ⟨place, "(A)", .label "A"⟩]

/-- The label of the first declaration. -/
def firstLabel : Symbol :=
  ⟨"A", 1, .label, some ⟨"a.asm", 2, 1⟩⟩

/-- The conflict of the second declaration with the first one. -/
def secondConflict (place : Location) : Diagnostic :=
  Symbol.conflict ⟨"A", 2, .label, some place⟩ firstLabel (some "(A)")

/-- If the conflict cannot be described, the label stays and no instruction is counted. -/
theorem after_declaredAgain {place : Location} {obstacle : Obstacle}
    (h : (secondConflict place).obstacle? ampleMemory = some obstacle) :
    let run := (start .default).generate (declaredAgain place)
    run.2 = .error (.unwritable obstacle) ∧ run.1.symbols.ofKind (some .label) = [firstLabel] ∧
      run.1.instructionCount = 0 ∧ ¬ run.1.program.LabelsCounted := by
  intro run
  have hlabels : HackToolchain.bindLabels .initial 0 (declaredAgain place) =
      ⟨⟨SymbolTable.initial.entries ++ [firstLabel]⟩, 2,
        some (.ofDiagnostic ampleMemory (secondConflict place))⟩ := rfl
  have hrun : HackToolchain.generate .default (declaredAgain place) =
      ⟨⟨⟨SymbolTable.initial.entries ++ [firstLabel]⟩,
        .ofBase Settings.default.variableBase Machine.reserved, [], 0⟩, false,
        some (.unwritable obstacle)⟩ := by
    simp only [HackToolchain.generate, hlabels, Interruption.ofDiagnostic, h]
  have hprogram : run.1.program = (HackToolchain.generate .default (declaredAgain place)).program := by
    refine (program_generate (start .default) (declaredAgain place)).trans ?_
    rw [Run.kept, show (start .default).settings = .default from rfl, hrun]
  rw [hrun] at hprogram
  have hsymbols : run.1.symbols.ofKind (some .label) = [firstLabel] := by
    rw [show run.1.symbols = ⟨SymbolTable.initial.entries ++ [firstLabel]⟩ from
      congrArg Program.symbols hprogram]
    decide
  have hcount : run.1.instructionCount = 0 := congrArg Program.instructionCount hprogram
  refine ⟨?_, hsymbols, hcount, fun hcounted => ?_⟩
  · rw [result_generate, show (start .default).settings = .default from rfl, hrun]
    rfl
  · have hlabel := hcounted firstLabel (by
      rw [show run.1.program.symbols = run.1.symbols from rfl, hsymbols]
      exact List.mem_singleton_self firstLabel)
    rw [show run.1.program.instructionCount = 0 from hcount] at hlabel
    exact absurd hlabel (by decide)

/-- A line number with one digit too many, and a column that no line can have. -/
def farLine : Location := ⟨"a.asm", 10 ^ Numeral.digitLimit, 1⟩

def farColumn : Location := ⟨"a.asm", 4, 10 ^ 30⟩

/-- A label stays behind an instruction that is not counted. -/
theorem labels_beyond_messages :
    let behindLine := (start .default).generate (declaredAgain farLine)
    let behindColumn := (start .default).generate (declaredAgain farColumn)
    (behindLine.2 = .error (.unwritable .longNumber) ∧
      behindLine.1.symbols.ofKind (some .label) = [firstLabel] ∧
      behindLine.1.instructionCount = 0 ∧ ¬ behindLine.1.program.LabelsCounted) ∧
    behindColumn.2 = .error (.unwritable .beyondIndex) ∧
      behindColumn.1.symbols.ofKind (some .label) = [firstLabel] ∧
      behindColumn.1.instructionCount = 0 ∧ ¬ behindColumn.1.program.LabelsCounted := by
  have hline : (secondConflict farLine).obstacle? ampleMemory = some .longNumber := by
    have hlong : numberObstacle? (10 ^ Numeral.digitLimit) = some .longNumber := by
      rw [numberObstacle?, if_neg (Numeral.isWritable_pow_iff.not.2 (Nat.lt_irrefl _))]
    have hnumbers : (secondConflict farLine).numbers =
        [2, 1] ++ [10 ^ Numeral.digitLimit, 1] := rfl
    have hshort : [2, 1].findSome? numberObstacle? = none := by decide
    rw [Diagnostic.obstacle?, hnumbers, List.findSome?_append, hshort, Option.none_or,
      List.findSome?_cons, hlong, Option.some_or]
  have hcolumn : (secondConflict farColumn).obstacle? ampleMemory = some .beyondIndex := by
    decide
  exact ⟨after_declaredAgain hline, after_declaredAgain hcolumn⟩

end Generator

end HackToolchain
