import HackToolchain.Proofs.Program.Denotation

/-!
# The two passes compute the meaning of a program

The first pass walks over a program and binds its labels; behind some statements it holds exactly the
labels which these declare, with the addresses of the closed form. The second pass walks over the
program again; behind some statements it holds all labels and the variables which these use, and its
allocator has served as many variables.

A run that succeeds therefore yields the words and the symbols of the closed form.
-/

namespace HackToolchain

open Denotation

variable {settings : Settings} {program done rest statements : List Statement} {s : Statement}
variable {name operand : String} {b b' : Bindings} {words : List Word}

theorem Text.Numeral.eq_of_readLiteral {value : Nat} (h : readLiteral name = .ok value) :
    value = Nat.ofDigitChars 10 name.toList 0 := by
  rw [readLiteral] at h
  split at h
  · exact absurd h (by simp)
  · exact (Except.ok.inj h).symm

/-! ### The first pass -/

theorem labelTable_nil : labelTable [] = .initial := by
  simp [labelTable, newLabels, labelNames]

theorem instructionCount_append_singleton : instructionCount (done ++ [s]) =
    instructionCount done + if s.command.isInstruction then 1 else 0 := by
  simp [instructionCount, List.countP_cons]

/-- A statement that declares no label is counted, if it is an instruction. -/
theorem bindLabels_cons_of_labelName? {symbols : SymbolTable} {count : Nat}
    (h : s.command.labelName? = none) : bindLabels symbols count (s :: rest) =
      bindLabels symbols (count + if s.command.isInstruction then 1 else 0) rest := by
  rw [bindLabels]
  cases hs : s.command with
  | addressLoad operand => rfl
  | compute fields => rfl
  | remark => rfl
  | label name => simp [hs, Command.labelName?] at h

/-- A step of the first pass that is not the last one takes the table of the closed form to that of
one more statement, and a label that it meets gets the number of instructions before it. -/
theorem bindLabels_cons_labelTable
    (h : (bindLabels (labelTable done) (instructionCount done) (s :: rest)).fault = none) :
    bindLabels (labelTable done) (instructionCount done) (s :: rest) =
        bindLabels (labelTable (done ++ [s])) (instructionCount (done ++ [s])) rest ∧
      ∀ name, s.command = .label name →
        (labelTable (done ++ [s])).lookup name = .ok (instructionCount done) := by
  rw [instructionCount_append_singleton]
  cases hlabel : s.command.labelName? with
  | none =>
    rw [labelTable_append_of_labelName? hlabel, bindLabels_cons_of_labelName? hlabel]
    refine ⟨rfl, ?_⟩
    intro name hname
    simp [hname, Command.labelName?] at hlabel
  | some label =>
    have hs := Command.labelName?_eq_some_iff.1 hlabel
    simp only [bindLabels, hs] at h ⊢
    cases hbind : (labelTable done).bind Text.ampleMemory
        ⟨label, instructionCount done, .label, some s.location⟩ (some s.source) with
    | mk bound result =>
      rw [hbind] at h
      cases result with
      | error i => simp at h
      | ok =>
        -- The table has accepted the binding, so it is now the one of the closed form.
        have hdefine := SymbolTable.define_of_bind hbind
        obtain rfl := define_labelTable hs hdefine
        refine ⟨rfl, ?_⟩
        intro name hname
        obtain rfl : label = name := by simpa using hname
        exact SymbolTable.lookup_define hdefine

/-- A first pass that comes to its end has bound the labels of the closed form. -/
theorem bindLabels_labelTable
    (h : (bindLabels (labelTable done) (instructionCount done) rest).fault = none) :
    bindLabels (labelTable done) (instructionCount done) rest =
      ⟨labelTable (done ++ rest), instructionCount (done ++ rest), none⟩ := by
  -- What is done grows by the statement that is taken from the rest.
  induction rest generalizing done with
  | nil => simp [bindLabels]
  | cons s rest ih =>
    obtain ⟨hstep, -⟩ := bindLabels_cons_labelTable h
    rw [hstep] at h ⊢
    simpa using ih h

/-- A first pass over a whole program that comes to its end. -/
theorem bindLabels_initial (h : (bindLabels .initial 0 program).fault = none) :
    bindLabels .initial 0 program = ⟨labelTable program, instructionCount program, none⟩ := by
  rw [← labelTable_nil] at h ⊢
  exact bindLabels_labelTable h

/-- Each declaration stands behind as many instructions as the address of its label says. -/
theorem lookup_labelTable_of_bindLabels {before after : List Statement}
    (h : (bindLabels (labelTable done) (instructionCount done) (before ++ s :: after)).fault = none)
    (hs : s.command = .label name) :
    (labelTable (done ++ (before ++ s :: after))).lookup name =
      .ok (instructionCount (done ++ before)) := by
  induction before generalizing done with
  | nil =>
    have hbound := (bindLabels_cons_labelTable h).2 name hs
    simp only [SymbolTable.lookup] at hbound ⊢
    cases hfind : (labelTable (done ++ [s])).find? name with
    | none => simp [hfind] at hbound
    | some symbol =>
      -- Later statements do not change the label.
      have hmore := find?_labelTable_append after hfind
      rw [List.append_assoc, List.singleton_append] at hmore
      rw [hfind] at hbound
      simpa [hmore] using hbound
  | cons t before ih =>
    rw [List.cons_append] at h
    obtain ⟨hstep, -⟩ := bindLabels_cons_labelTable h
    rw [hstep] at h
    simpa using ih h

/-! ### The second pass -/

namespace Bindings

theorem resolve_of_isLiteral {location : Location} {source : String}
    (h : Text.Numeral.isLiteral operand = true) : b.resolve location source operand =
      (b, match Text.Numeral.readLiteral operand with
        | .ok value => .ok (value : Int)
        | .error fault => .error (.numeral fault)) := by
  rw [resolve, if_pos h]
  cases Text.Numeral.readLiteral operand <;> rfl

theorem resolve_of_contains {location : Location} {source : String}
    (hliteral : Text.Numeral.isLiteral operand = false) (h : b.symbols.contains operand = true) :
    b.resolve location source operand = (b, b.lookup operand) := by
  simp [resolve, hliteral, h]

/-- What keeps the allocation of an address from being announced. -/
def allocationObstacle? (address : Int) (location : Location) : Option Text.Obstacle :=
  (Text.numberObstacle? address).or location.obstacle?

/-- A name that is not bound becomes a variable, unless its address is negative. -/
theorem resolve_of_not_contains {location : Location} {source : String}
    (hliteral : Text.Numeral.isLiteral operand = false) (h : b.symbols.contains operand = false) :
    b.resolve location source operand =
      if b.allocator.next < 0 then
        (⟨b.symbols, b.allocator.allocate.2⟩, .error (.ofNegative b.allocator.next))
      else
        (⟨⟨b.symbols.entries ++ [⟨operand, b.allocator.next, .var, some location⟩]⟩,
          b.allocator.allocate.2⟩,
          match allocationObstacle? b.allocator.next location with
          | some obstacle => .error (.unwritable obstacle)
          | none => .ok b.allocator.next) := by
  have hnone : b.symbols.find? operand = none := by
    simpa [SymbolTable.contains] using h
  have hentries : b.symbols.entries.find? (fun s => s.name == operand) = none := hnone
  have hbind : b.symbols.bind Text.ampleMemory ⟨operand, b.allocator.next, .var, some location⟩
      (some source) = _ := SymbolTable.bind_of_find?_eq_none hnone
  simp only [resolve, hliteral, h, Bool.false_eq_true, if_false, Allocator.allocate, hbind]
  by_cases hneg : b.allocator.next < 0
  · simp only [if_pos hneg]
  · simp only [if_neg hneg, allocationObstacle?]
    cases Text.numberObstacle? b.allocator.next with
    | some obstacle => rfl
    | none =>
      cases location.obstacle? with
      | some obstacle => rfl
      | none =>
        simp [lookup, SymbolTable.lookup, SymbolTable.find?, List.find?_append, hentries]

/-- A name that is not bound is resolved to the next address, if the allocation can be announced. -/
theorem of_resolve_of_not_contains {location : Location} {source : String}
    (hliteral : Text.Numeral.isLiteral operand = false) (hbound : b.symbols.contains operand = false)
    {address : Int} (h : b.resolve location source operand = (b', .ok address)) :
    address = b.allocator.next ∧
      b' = ⟨⟨b.symbols.entries ++ [⟨operand, b.allocator.next, .var, some location⟩]⟩,
        b.allocator.allocate.2⟩ := by
  rw [resolve_of_not_contains hliteral hbound] at h
  split at h
  · simp at h
  · obtain ⟨rfl, hvalue⟩ := Prod.mk.inj h
    split at hvalue
    · simp at hvalue
    · exact ⟨(Except.ok.inj hvalue).symm, rfl⟩

/-- The state of the second pass behind some statements of a program. -/
structure Matches (settings : Settings) (program done : List Statement) (b : Bindings) : Prop where
  symbols_eq : b.symbols = usedTable settings program done
  served : b.allocator.Served Machine.reserved settings.variableBase
    (usedVariables program done).length

/-- The second pass begins with the labels of all statements, and with no variable. -/
theorem matches_start (settings : Settings) (program : List Statement) :
    Matches settings program [] ⟨labelTable program, .ofBase settings.variableBase Machine.reserved⟩ where
  symbols_eq := by simp [usedTable, usedVariables, operands]
  served := by simpa [usedVariables, operands] using Allocator.served_ofBase _ _

/-- A statement that uses no new variable keeps the state. -/
theorem Matches.append_of_forall (hb : Matches settings program done b)
    (h : ∀ operand, s.command = .addressLoad operand → isVariable program operand = true →
      operand ∈ usedVariables program done) :
    Matches settings program (done ++ [s]) b where
  symbols_eq := by rw [hb.symbols_eq, usedTable, usedTable, usedVariables_append_of_forall h]
  served := by rw [usedVariables_append_of_forall h]; exact hb.served

/-- A literal is resolved to its value. -/
theorem Matches.resolve_literal (hb : Matches settings program done b)
    (hs : s.command = .addressLoad operand) (hliteral : Text.Numeral.isLiteral operand = true)
    {address : Int} (h : b.resolve s.location s.source operand = (b', .ok address)) :
    Matches settings program (done ++ [s]) b' ∧ address = addressOf settings program operand := by
  rw [resolve_of_isLiteral hliteral] at h
  obtain ⟨rfl, hvalue⟩ := Prod.mk.inj h
  constructor
  · apply hb.append_of_forall
    intro t ht hvar
    obtain rfl : operand = t := by simpa [hs] using ht
    rw [isVariable_eq_true_iff] at hvar
    simp [hliteral] at hvar
  · cases hread : Text.Numeral.readLiteral operand with
    | error fault => simp [hread] at hvalue
    | ok value =>
      obtain rfl := Text.Numeral.eq_of_readLiteral hread
      simpa [addressOf, hliteral, hread, eq_comm] using hvalue

/-- A bound name is resolved to the address that the closed form gives it. -/
theorem Matches.resolve_bound (hb : Matches settings program done b)
    (hs : s.command = .addressLoad operand) (hliteral : Text.Numeral.isLiteral operand = false)
    (hbound : b.symbols.contains operand = true) {address : Int}
    (h : b.resolve s.location s.source operand = (b', .ok address)) :
    Matches settings program (done ++ [s]) b' ∧ address = addressOf settings program operand := by
  rw [resolve_of_contains hliteral hbound] at h
  obtain ⟨rfl, hvalue⟩ := Prod.mk.inj h
  rw [hb.symbols_eq] at hbound
  constructor
  · apply hb.append_of_forall
    intro t ht hvar
    obtain rfl : operand = t := by simpa [hs] using ht
    obtain ⟨-, hpredefined, hlabel⟩ := isVariable_eq_true_iff.1 hvar
    -- A bound variable was used before.
    rcases contains_usedTable.1 hbound with hp | hl | hu
    · simp [hpredefined] at hp
    · exact absurd hl hlabel
    · exact hu
  · rw [Bindings.lookup, hb.symbols_eq, lookup_usedTable hliteral hbound] at hvalue
    simpa [eq_comm] using hvalue

/-- A name that is not bound is a variable that no statement before has used. -/
theorem Matches.isVariable_of_not_contains (hb : Matches settings program done b)
    (hliteral : Text.Numeral.isLiteral operand = false)
    (hbound : b.symbols.contains operand = false) :
    isVariable program operand = true ∧ operand ∉ usedVariables program done := by
  have hunbound : ¬ (usedTable settings program done).contains operand = true := by
    rw [← hb.symbols_eq, hbound]
    exact Bool.false_ne_true
  obtain ⟨hpredefined, hlabel, hnew⟩ :
      ¬ isPredefined operand = true ∧ operand ∉ labelNames program ∧
        operand ∉ usedVariables program done := by
    simpa only [contains_usedTable, not_or] using hunbound
  exact ⟨isVariable_eq_true_iff.2 ⟨hliteral, Bool.not_eq_true _ ▸ hpredefined, hlabel⟩, hnew⟩

/-- A name that is not bound has the next address. -/
theorem Matches.addressOf_of_not_contains (hb : Matches settings program done b)
    (hprogram : program = done ++ s :: rest) (hs : s.command = .addressLoad operand)
    (hliteral : Text.Numeral.isLiteral operand = false)
    (hbound : b.symbols.contains operand = false) :
    addressOf settings program operand = b.allocator.next := by
  obtain ⟨hvar, hnew⟩ := hb.isVariable_of_not_contains hliteral hbound
  have hsymbol := variableSymbol_of_notMem settings hprogram hs hvar hnew
  have haddress : variableAddress settings program operand = b.allocator.next := by
    rw [hb.served.next_eq]
    exact congrArg Symbol.address hsymbol
  rw [addressOf_of_isVariable hvar, haddress]

/-- Any other name is a new variable, and it is bound to the next free address. -/
theorem Matches.allocate (hb : Matches settings program done b)
    (hprogram : program = done ++ s :: rest) (hs : s.command = .addressLoad operand)
    (hliteral : Text.Numeral.isLiteral operand = false)
    (hbound : b.symbols.contains operand = false) :
    Matches settings program (done ++ [s])
      ⟨⟨b.symbols.entries ++ [⟨operand, b.allocator.next, .var, some s.location⟩]⟩,
        b.allocator.allocate.2⟩ := by
  obtain ⟨hvar, hnew⟩ := hb.isVariable_of_not_contains hliteral hbound
  have hsymbol := variableSymbol_of_notMem settings hprogram hs hvar hnew
  have hused := usedVariables_append_of_notMem hs hvar hnew
  refine ⟨?_, ?_⟩
  · rw [usedTable, hused, List.map_append, List.map_singleton, hsymbol, ← hb.served.next_eq,
      ← List.append_assoc, hb.symbols_eq]
    rfl
  · -- The allocator has served the variables in use, so it serves the next one now.
    rw [hused, List.length_append]
    exact hb.served.allocate

/-- An operand that is resolved has the address of the closed form. -/
theorem Matches.resolve (hb : Matches settings program done b)
    (hprogram : program = done ++ s :: rest) (hs : s.command = .addressLoad operand)
    {address : Int} (h : b.resolve s.location s.source operand = (b', .ok address)) :
    Matches settings program (done ++ [s]) b' ∧ address = addressOf settings program operand := by
  cases hliteral : Text.Numeral.isLiteral operand with
  | true => exact hb.resolve_literal hs hliteral h
  | false =>
    cases hbound : b.symbols.contains operand with
    | true => exact hb.resolve_bound hs hliteral hbound h
    | false =>
      obtain ⟨rfl, rfl⟩ := of_resolve_of_not_contains hliteral hbound h
      exact ⟨hb.allocate hprogram hs hliteral hbound,
        (hb.addressOf_of_not_contains hprogram hs hliteral hbound).symm⟩

theorem encoded_eq_ok {result : Except Cause Word} {word : Option Word}
    (h : encoded result = .ok word) : some result = word.map Except.ok := by
  cases result with
  | ok w =>
    obtain rfl := Except.ok.inj h
    rfl
  | error cause => simp [encoded] at h

theorem encoded_eq_error {result : Except Cause Word} {i : Interruption}
    (h : encoded result = .error i) :
    ∃ cause, result = .error cause ∧ i = .ofCause cause := by
  cases result with
  | ok w => simp [encoded] at h
  | error cause => exact ⟨cause, rfl, (Except.error.inj h).symm⟩

/-- A statement that is encoded loads an address, computes, or is no instruction. -/
theorem encode_eq_ok_cases {word : Option Word} (h : b.encode settings s = (b', .ok word)) :
    (∃ operand address, s.command = .addressLoad operand ∧
      b.resolve s.location s.source operand = (b', .ok address) ∧
      some (Word.ofAddress address settings.limit) = word.map Except.ok) ∨
    (∃ fields, s.command = .compute fields ∧ b' = b ∧ some fields.encode = word.map Except.ok) ∨
    (s.command.isInstruction = false ∧ b' = b ∧ word = none) := by
  rw [Bindings.encode] at h
  cases hs : s.command with
  | addressLoad operand =>
    simp only [hs] at h
    cases hresolve : b.resolve s.location s.source operand with
    | mk bound result =>
      rw [hresolve] at h
      cases result with
      | error i => simp at h
      | ok address =>
        obtain ⟨rfl, hword⟩ := Prod.mk.inj h
        exact .inl ⟨operand, address, rfl, hresolve, encoded_eq_ok hword⟩
  | compute fields =>
    simp only [hs] at h
    obtain ⟨rfl, hword⟩ := Prod.mk.inj h
    exact .inr (.inl ⟨fields, rfl, rfl, encoded_eq_ok hword⟩)
  | label name =>
    simp only [hs] at h
    obtain ⟨rfl, hword⟩ := Prod.mk.inj h
    exact .inr (.inr ⟨rfl, rfl, (Except.ok.inj hword).symm⟩)
  | remark =>
    simp only [hs] at h
    obtain ⟨rfl, hword⟩ := Prod.mk.inj h
    exact .inr (.inr ⟨rfl, rfl, (Except.ok.inj hword).symm⟩)

/-- A statement that fails has an operand that is not resolved, or a word that is refused. -/
theorem encode_eq_error_cases {i : Interruption} (h : b.encode settings s = (b', .error i)) :
    (∃ operand, s.command = .addressLoad operand ∧
      b.resolve s.location s.source operand = (b', .error i)) ∨
    (∃ operand address cause, s.command = .addressLoad operand ∧
      b.resolve s.location s.source operand = (b', .ok address) ∧
      Word.ofAddress address settings.limit = .error cause ∧ i = .ofCause cause) ∨
    (∃ fields cause, s.command = .compute fields ∧ b' = b ∧ fields.encode = .error cause ∧
      i = .ofCause cause) := by
  rw [Bindings.encode] at h
  cases hs : s.command with
  | addressLoad operand =>
    simp only [hs] at h
    cases hresolve : b.resolve s.location s.source operand with
    | mk bound result =>
      rw [hresolve] at h
      cases result with
      | error fault =>
        obtain ⟨rfl, hfault⟩ := Prod.mk.inj h
        exact .inl ⟨operand, rfl, by rw [hresolve, Except.error.inj hfault]⟩
      | ok address =>
        obtain ⟨rfl, hword⟩ := Prod.mk.inj h
        obtain ⟨cause, hcause, hi⟩ := encoded_eq_error hword
        exact .inr (.inl ⟨operand, address, cause, rfl, hresolve, hcause, hi⟩)
  | compute fields =>
    simp only [hs] at h
    obtain ⟨rfl, hword⟩ := Prod.mk.inj h
    obtain ⟨cause, hcause, hi⟩ := encoded_eq_error hword
    exact .inr (.inr ⟨fields, cause, rfl, rfl, hcause, hi⟩)
  | label name => simp [hs] at h
  | remark => simp [hs] at h

/-- A step of the second pass that is not the last one encodes as the closed form has it. -/
theorem Matches.encode (hb : Matches settings program done b)
    (hprogram : program = done ++ s :: rest) {word : Option Word}
    (h : b.encode settings s = (b', .ok word)) :
    Matches settings program (done ++ [s]) b' ∧
      word? settings program s = word.map Except.ok := by
  rcases encode_eq_ok_cases h with ⟨operand, address, hs, hresolve, hword⟩ |
    ⟨fields, hs, rfl, hword⟩ | ⟨hs, rfl, rfl⟩
  · obtain ⟨hmatches, rfl⟩ := hb.resolve hprogram hs hresolve
    refine ⟨hmatches, ?_⟩
    rw [word?, hs]
    exact hword
  · refine ⟨hb.append_of_forall fun t ht => by simp [hs] at ht, ?_⟩
    rw [word?, hs]
    exact hword
  · refine ⟨hb.append_of_forall fun t ht => by simp [ht, Command.isInstruction] at hs, ?_⟩
    rw [word?]
    cases hcommand : s.command <;> simp_all [Command.isInstruction]

/-- A second pass that comes to its end has used all variables, and has listed the words of the
closed form. -/
theorem Matches.emit {address : Nat} (hb : Matches settings program done b)
    (hprogram : program = done ++ rest) (h : (emit settings b address rest).fault = none) :
    Matches settings program program (emit settings b address rest).bindings ∧
      rest.filterMap (word? settings program) =
        ((emit settings b address rest).listing.filterMap (·.word)).map Except.ok := by
  -- The state matches what is done, which grows until it is the whole program.
  induction rest generalizing done b address with
  | nil =>
    obtain rfl : program = done := by simpa using hprogram
    exact ⟨hb, rfl⟩
  | cons s rest ih =>
    rw [HackToolchain.emit] at h ⊢
    cases hencode : b.encode settings s with
    | mk bound result =>
      cases result with
      | error i => simp [hencode] at h
      | ok word =>
        simp only [hencode] at h ⊢
        obtain ⟨hmatches, hword⟩ := hb.encode hprogram hencode
        obtain ⟨hend, hwords⟩ := ih hmatches (by simpa using hprogram) h
        refine ⟨hend, ?_⟩
        rw [List.filterMap_cons, List.filterMap_cons, hword, hwords]
        cases word <;> rfl

end Bindings

/-! ### Runs -/

/-- The first pass of a run without a fault. -/
theorem bindLabels_of_result (h : (generate settings statements).result = .ok words) :
    bindLabels .initial 0 statements =
      ⟨labelTable statements, instructionCount statements, none⟩ := by
  have hfault : (bindLabels .initial 0 statements).fault = none := by
    simp only [generate, Run.result] at h
    cases hlabels : (bindLabels .initial 0 statements).fault with
    | none => rfl
    | some fault => simp [hlabels] at h
  exact bindLabels_initial hfault

/-- The second pass of a run without a fault. -/
theorem generate_of_result (h : (generate settings statements).result = .ok words) :
    (generate settings statements).program.symbols = symbolTable settings statements ∧
      statements.filterMap (word? settings statements) = words.map Except.ok := by
  have hlabels := bindLabels_of_result h
  simp only [generate, hlabels, Run.result] at h ⊢
  cases hfault : (emit settings ⟨labelTable statements,
      .ofBase settings.variableBase Machine.reserved⟩ 0 statements).fault with
  | some fault => simp [hfault] at h
  | none =>
    obtain ⟨hend, hwords⟩ := (Bindings.matches_start settings statements).emit rfl hfault
    rw [hfault] at h
    obtain rfl := Except.ok.inj h
    exact ⟨hend.symbols_eq, hwords⟩

theorem lookup_usedTable_of_labelTable {address : Int}
    (h : (labelTable program).lookup name = .ok address) :
    (usedTable settings program statements).lookup name = .ok address := by
  rw [SymbolTable.lookup] at h ⊢
  rw [find?_usedTable]
  cases hfind : (labelTable program).find? name with
  | none => simp [hfind] at h
  | some symbol => simpa [hfind] using h

/-- A run that succeeds yields, in source order, the word of every instruction with its operand
resolved in closed form, and the symbols of the closed form in binding order. Each declaration of a
label, a repeated one as well, stands behind as many instructions as the table says. -/
theorem generate_eq_denotation (h : (generate settings statements).result = .ok words) :
    statements.filterMap (word? settings statements) = words.map Except.ok ∧
      (generate settings statements).program.symbols = symbolTable settings statements ∧
      ∀ before s after name, statements = before ++ s :: after → s.command = .label name →
        (symbolTable settings statements).lookup name = .ok (instructionCount before) := by
  obtain ⟨hsymbols, hwords⟩ := generate_of_result h
  refine ⟨hwords, hsymbols, fun before s after name hsplit hs => ?_⟩
  have hfault : (bindLabels (labelTable []) (instructionCount []) statements).fault = none := by
    rw [labelTable_nil]
    exact congrArg Labelling.fault (bindLabels_of_result h)
  rw [hsplit] at hfault
  have hlookup := lookup_labelTable_of_bindLabels hfault hs
  rw [← hsplit, List.nil_append, List.nil_append] at hlookup
  exact lookup_usedTable_of_labelTable hlookup

/-- A label on a predefined name, a label that is used before it is declared twice, a variable and
a literal. -/
def namespaceProgram : List Statement :=
  [⟨⟨"a.asm", 1, 1⟩, "(SP)", .label "SP"⟩,
   ⟨⟨"a.asm", 2, 1⟩, "@x", .addressLoad "x"⟩,
   ⟨⟨"a.asm", 3, 1⟩, "@END", .addressLoad "END"⟩,
   ⟨⟨"a.asm", 4, 1⟩, "@y", .addressLoad "y"⟩,
   ⟨⟨"a.asm", 5, 1⟩, "(END)", .label "END"⟩,
   ⟨⟨"a.asm", 6, 1⟩, "(END)", .label "END"⟩,
   ⟨⟨"a.asm", 7, 1⟩, "@x", .addressLoad "x"⟩,
   ⟨⟨"a.asm", 8, 1⟩, "@7", .addressLoad "7"⟩,
   ⟨⟨"a.asm", 9, 1⟩, "D=M", .compute ⟨some "D", "M", none, 3, 0⟩⟩]

def namespaceWords : List Word :=
  ["0000000000010000", "0000000000000011", "0000000000010001", "0000000000010000",
   "0000000000000111", "1111110000010000"]

theorem generate_namespaceProgram :
    (generate .default namespaceProgram).result = .ok namespaceWords ∧
      namespaceProgram.filterMap (word? .default namespaceProgram) =
        namespaceWords.map Except.ok ∧
      (generate .default namespaceProgram).program.symbols =
        symbolTable .default namespaceProgram ∧
      ∀ before s after name, namespaceProgram = before ++ s :: after → s.command = .label name →
        (symbolTable .default namespaceProgram).lookup name = .ok (instructionCount before) := by
  have h : (generate .default namespaceProgram).result = .ok namespaceWords := by rfl
  exact ⟨h, generate_eq_denotation h⟩

end HackToolchain
