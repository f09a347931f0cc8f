import HackToolchain.Proofs.Program.Faults
import HackToolchain.Proofs.Program.History
import Mathlib.Logic.Equiv.Basic

/-!
# Renaming symbols

How a program spells its symbols does not matter. If labels and operands are renamed so that no two
names become one, and neither literals nor predefined names are touched, the program is assembled
to the same words, or fails at the same place for the same cause; the table has the same bindings in
the same order, under their new names.

Both passes compare names and look them up, but never look into one, except to see whether it is a
literal. So every step on renamed statements is the step on the original ones, renamed.
-/

namespace HackToolchain

open Text

/-- An injective renaming of names that keeps literals and predefined names. -/
structure Renaming where
  toFun : String → String
  injective : Function.Injective toFun
  apply_literal {name : String} : Numeral.isLiteral name = true → toFun name = name
  apply_predefined : ∀ entry ∈ Machine.predefined, toFun entry.1 = entry.1

namespace Renaming

instance : CoeFun Renaming fun _ => String → String := ⟨toFun⟩

variable {f : Renaming} {name other : String}

theorem apply_eq_iff : f name = f other ↔ name = other :=
  f.injective.eq_iff

/-- No other name becomes a literal. -/
theorem isLiteral_apply : Numeral.isLiteral (f name) = Numeral.isLiteral name := by
  refine Bool.eq_iff_iff.2 ⟨fun h => ?_, fun h => ?_⟩
  -- A literal is the new name of itself, and of no other name.
  · have hname : f name = name := f.injective (f.apply_literal h)
    rwa [hname] at h
  · rwa [f.apply_literal h]

/-- A name that may be renamed: it is neither a literal nor predefined. -/
def Free (name : String) : Prop :=
  Numeral.isLiteral name = false ∧ ∀ entry ∈ Machine.predefined, entry.1 ≠ name

instance : Decidable (Free name) :=
  inferInstanceAs (Decidable (_ ∧ _))

/-- Gives two free names to each other. -/
def swap (first second : String) (hfirst : Free first) (hsecond : Free second) : Renaming where
  toFun := Equiv.swap first second
  injective := (Equiv.swap first second).injective
  apply_literal {name} h := by
    refine Equiv.swap_apply_of_ne_of_ne ?_ ?_
    · rintro rfl
      simp [hfirst.1] at h
    · rintro rfl
      simp [hsecond.1] at h
  apply_predefined entry hentry :=
    Equiv.swap_apply_of_ne_of_ne (hfirst.2 entry hentry) (hsecond.2 entry hentry)

end Renaming

/-! ### Statements, tables and faults under new names -/

def Command.rename (f : Renaming) : Command → Command
  | addressLoad operand => addressLoad (f operand)
  | compute fields => compute fields
  | label name => label (f name)
  | remark => remark

/-- A statement with another operand or label; its place and its source text stay. -/
def Statement.rename (f : Renaming) (s : Statement) : Statement :=
  { s with command := s.command.rename f }

def Symbol.rename (f : Renaming) (s : Symbol) : Symbol :=
  { s with name := f s.name }

/-- A table with other names; its bindings keep their order. -/
def SymbolTable.rename (f : Renaming) (t : SymbolTable) : SymbolTable :=
  ⟨t.entries.map (·.rename f)⟩

def SymbolTable.Refusal.rename (f : Renaming) : Refusal → Refusal
  | conflict existing => conflict (existing.rename f)
  | negative => negative

/-- A cause that names another symbol. -/
def Cause.rename (f : Renaming) : Cause → Cause
  | unknownSymbol name => unknownSymbol (f name)
  | duplicateSymbol name address existing first => duplicateSymbol (f name) address existing first
  | other => other

def Diagnostic.rename (f : Renaming) (d : Diagnostic) : Diagnostic :=
  { d with cause := d.cause.rename f }

/-- An interruption for the same reason and at the same place, by which another symbol may be
named. -/
def Interruption.rename (f : Renaming) : Interruption → Interruption
  | diagnosed d => diagnosed (d.rename f)
  | other => other

def Bindings.rename (f : Renaming) (b : Bindings) : Bindings :=
  { b with symbols := b.symbols.rename f }

def Labelling.rename (f : Renaming) (l : Labelling) : Labelling :=
  { l with symbols := l.symbols.rename f, fault := l.fault.map (·.rename f) }

def Emission.rename (f : Renaming) (e : Emission) : Emission :=
  { e with bindings := e.bindings.rename f, fault := e.fault.map (·.rename f) }

def Program.rename (f : Renaming) (p : Program) : Program :=
  { p with symbols := p.symbols.rename f }

def Run.rename (f : Renaming) (r : Run) : Run :=
  { r with program := r.program.rename f, fault := r.fault.map (·.rename f) }

/-- A generator with other names in its table; all else that it holds stays. -/
def Generator.rename (f : Renaming) (g : Generator) : Generator :=
  { g with symbols := g.symbols.rename f }

variable {settings : Settings} {statements : List Statement} {s : Statement} {symbol : Symbol}
variable {f : Renaming} {t : SymbolTable} {b : Bindings} {d : Diagnostic} {i : Interruption}
variable {name operand : String} {n address : Nat}

/-! ### The table -/

namespace SymbolTable

theorem find?_rename : (t.rename f).find? (f name) = (t.find? name).map (·.rename f) := by
  have hnames : (fun s : Symbol => s.name == f name) ∘ Symbol.rename f = fun s => s.name == name := by
    funext s
    simp only [Function.comp_apply, Symbol.rename, Bool.beq_eq_decide_eq, Renaming.apply_eq_iff]
  rw [find?, find?, rename, List.find?_map, hnames]

theorem contains_rename : (t.rename f).contains (f name) = t.contains name := by
  rw [contains, contains, find?_rename, Option.isSome_map]

theorem lookup_rename :
    (t.rename f).lookup (f name) = (t.lookup name).mapError (Cause.rename f) := by
  rw [lookup, lookup, find?_rename]
  cases t.find? name <;> rfl

/-- A binding is accepted or refused under its new name as it is under its own. -/
theorem define_rename (symbol : Symbol) : (t.rename f).define (symbol.rename f) =
    ((t.define symbol).map (rename f)).mapError (Refusal.rename f) := by
  rw [define, define, Symbol.rename, find?_rename]
  cases t.find? symbol.name with
  | some existing =>
    simp only [Option.map_some, Symbol.rename]
    split <;> rfl
  | none =>
    simp only [Option.map_none]
    split
    · rfl
    · simp [rename, Symbol.rename, Except.map, Except.mapError]

/-- The predefined symbols keep their names. -/
theorem rename_initial : initial.rename f = initial := by
  have hsame : ∀ s ∈ initial.entries, s.rename f = s := by
    intro s hs
    obtain ⟨entry, hentry, rfl⟩ := List.mem_map.1 hs
    simp only [Symbol.rename, f.apply_predefined entry hentry]
  rw [rename, List.map_congr_left hsame, List.map_id']

end SymbolTable

/-! ### Faults -/

namespace Diagnostic

/-- Names are written at any length, so they do not decide whether a message can be written. -/
theorem obstacle?_rename {memory : Int} : (d.rename f).obstacle? memory = d.obstacle? memory := by
  have hcause : (d.cause.rename f).numbers = d.cause.numbers := by
    cases d.cause with
    | duplicateSymbol name address existing first => cases first <;> rfl
    | _ => rfl
  have hnumbers : (d.rename f).numbers = d.numbers := by
    rw [numbers, numbers, rename, hcause]
  rw [obstacle?, obstacle?, hnumbers]
  rfl

theorem locate_rename (location : Option Location) (sourceLine : Option String) :
    (d.rename f).locate location sourceLine = (d.locate location sourceLine).rename f := by
  obtain ⟨cause, place, line⟩ := d
  cases place <;> rfl

end Diagnostic

theorem Statement.faultPlace_rename (s : Statement) (cause : Cause) :
    (s.rename f).faultPlace (cause.rename f) = s.faultPlace cause := by
  have hcolumn : (s.command.rename f).faultColumn s.location.column (cause.rename f) =
      s.command.faultColumn s.location.column cause := by
    cases s.command with
    | compute fields => cases cause <;> rfl
    | _ => rfl
  simp only [faultPlace, rename, hcolumn]

namespace Interruption

theorem ofDiagnostic_rename {memory : Int} :
    ofDiagnostic memory (d.rename f) = (ofDiagnostic memory d).rename f := by
  rw [ofDiagnostic, ofDiagnostic, Diagnostic.obstacle?_rename]
  cases d.obstacle? memory <;> rfl

theorem ofCause_rename (cause : Cause) :
    ofCause (cause.rename f) = (ofCause cause).rename f :=
  ofDiagnostic_rename (d := .ofCause cause)

theorem ofNegative_rename (address : Int) : (ofNegative address).rename f = ofNegative address := by
  rw [ofNegative]
  cases numberObstacle? address <;> rfl

theorem ofRefusal_rename {memory : Int} (source : String) (refusal : SymbolTable.Refusal) :
    ofRefusal memory (symbol.rename f) (some source) (refusal.rename f) =
      (ofRefusal memory symbol (some source) refusal).rename f := by
  cases refusal with
  | conflict existing => exact ofDiagnostic_rename (d := symbol.conflict existing (some source))
  | negative => exact (ofNegative_rename symbol.address).symm

/-- The fault of a statement has its place under other names too. -/
theorem locate_rename : (i.rename f).locate (s.rename f).faultPlace s.source =
    (i.locate s.faultPlace s.source).rename f := by
  cases i with
  | diagnosed d =>
    change ofDiagnostic ampleMemory ((d.rename f).locate
      (some ((s.rename f).faultPlace (d.cause.rename f))) (some s.source)) = _
    rw [Statement.faultPlace_rename, Diagnostic.locate_rename, ofDiagnostic_rename]
    rfl
  | _ => rfl

end Interruption

theorem SymbolTable.announcementObstacle?_rename :
    (t.rename f).announcementObstacle? (symbol.rename f) = t.announcementObstacle? symbol := by
  have hbound : (t.rename f).contains (symbol.rename f).name = t.contains symbol.name :=
    contains_rename
  rw [announcementObstacle?, announcementObstacle?, hbound]
  rfl

/-- A symbol is bound under its new name as it is under its own. -/
theorem SymbolTable.bind_rename {memory : Int} (symbol : Symbol) (source : String) :
    (t.rename f).bind memory (symbol.rename f) (some source) =
      Prod.map (rename f) (Except.mapError (Interruption.rename f))
        (t.bind memory symbol (some source)) := by
  rw [bind, bind, define_rename]
  cases t.define symbol with
  | error refusal =>
    simp only [Except.map, Except.mapError, Prod.map, Interruption.ofRefusal_rename]
  | ok bound =>
    simp only [Except.map, Except.mapError, announcementObstacle?_rename]
    cases t.announcementObstacle? symbol <;> rfl

/-! ### The two passes -/

/-- The first pass over renamed statements. -/
theorem bindLabels_rename : bindLabels (t.rename f) n (statements.map (·.rename f)) =
    (bindLabels t n statements).rename f := by
  induction statements generalizing t n with
  | nil => rfl
  | cons s rest ih =>
    rw [List.map_cons]
    cases hs : s.command with
    | label name =>
      -- The renamed label has the same address and place, so it is the label renamed.
      have hbind : (t.rename f).bind ampleMemory ⟨f name, n, .label, some s.location⟩
          (some s.source) = _ :=
        SymbolTable.bind_rename ⟨name, n, .label, some s.location⟩ s.source
      simp only [bindLabels, Statement.rename, Command.rename, hs, hbind]
      cases t.bind ampleMemory ⟨name, n, .label, some s.location⟩ (some s.source) with
      | mk bound result =>
        cases result with
        | ok => exact ih
        | error i => rfl
    | addressLoad _ | compute _ | remark =>
      simp only [bindLabels, Statement.rename, Command.rename, hs]
      exact ih

namespace Bindings

theorem rename_mk (t : SymbolTable) (allocator : Allocator) :
    rename f ⟨t, allocator⟩ = ⟨t.rename f, allocator⟩ := rfl

theorem lookup_rename : (b.rename f).lookup (f name) =
    (b.lookup name).mapError (Interruption.rename f) := by
  rw [lookup, lookup, rename, SymbolTable.lookup_rename]
  cases b.symbols.lookup name with
  | ok address => rfl
  | error cause => exact congrArg Except.error (Interruption.ofCause_rename cause)

/-- An operand is resolved under its new name as it is under its own. -/
theorem resolve_rename (location : Location) (source operand : String) :
    (b.rename f).resolve location source (f operand) =
      Prod.map (rename f) (Except.mapError (Interruption.rename f))
        (b.resolve location source operand) := by
  cases hliteral : Numeral.isLiteral operand with
  | true =>
    rw [f.apply_literal hliteral, resolve_of_isLiteral hliteral, resolve_of_isLiteral hliteral]
    cases Numeral.readLiteral operand <;> rfl
  | false =>
    have hrenamed : Numeral.isLiteral (f operand) = false := by
      rw [Renaming.isLiteral_apply, hliteral]
    cases hbound : b.symbols.contains operand with
    | true =>
      rw [resolve_of_contains hliteral hbound, resolve_of_contains hrenamed
        (SymbolTable.contains_rename.trans hbound), lookup_rename]
      rfl
    | false =>
      rw [resolve_of_not_contains hliteral hbound, resolve_of_not_contains hrenamed
        (SymbolTable.contains_rename.trans hbound)]
      -- The next address does not depend on the names that have got the others.
      have hallocator : (b.rename f).allocator = b.allocator := rfl
      rw [hallocator]
      split
      · simp [Prod.map, rename, Except.mapError, Interruption.ofNegative_rename]
      · cases allocationObstacle? b.allocator.next location <;>
          simp [Prod.map, rename, SymbolTable.rename, Symbol.rename, Except.mapError,
            Interruption.rename]

/-- A fault of an encoding that names no symbol is the same under any names. -/
theorem encoded_rename {result : Except Cause Word}
    (h : ∀ cause, result = .error cause → cause.rename f = cause) :
    (encoded result).mapError (Interruption.rename f) = encoded result := by
  cases result with
  | ok word => rfl
  | error cause =>
    have hcause := h cause rfl
    simp only [encoded, Except.mapError, ← Interruption.ofCause_rename, hcause]

theorem encoded_ofAddress_rename (value : Int) (limit : Option Int) :
    (encoded (Word.ofAddress value limit)).mapError (Interruption.rename f) =
      encoded (Word.ofAddress value limit) := by
  refine encoded_rename fun cause h => ?_
  rw [Word.ofAddress] at h
  split at h
  · simp at h
  · rw [← Except.error.inj h]
    rfl

theorem encoded_encode_rename (fields : Fields) :
    (encoded fields.encode).mapError (Interruption.rename f) = encoded fields.encode := by
  refine encoded_rename fun cause h => ?_
  obtain ⟨field, -, rfl⟩ := Fields.encode_eq_error_iff.1 h
  rfl

/-- A statement is encoded under new names as it is under the original ones. -/
theorem encode_rename : (b.rename f).encode settings (s.rename f) =
    Prod.map (rename f) (Except.mapError (Interruption.rename f)) (b.encode settings s) := by
  cases hs : s.command with
  | addressLoad operand =>
    simp only [encode, Statement.rename, Command.rename, hs, resolve_rename]
    cases b.resolve s.location s.source operand with
    | mk bound result =>
      cases result with
      | ok value =>
        exact congrArg (Prod.mk _) (encoded_ofAddress_rename value settings.limit).symm
      | error i => rfl
  | compute fields =>
    simp only [encode, Statement.rename, Command.rename, hs]
    exact congrArg (Prod.mk _) (encoded_encode_rename fields).symm
  | label _ | remark =>
    simp only [encode, Statement.rename, Command.rename, hs]
    rfl

end Bindings

/-- The second pass over renamed statements. -/
theorem emit_rename : emit settings (b.rename f) address (statements.map (·.rename f)) =
    (emit settings b address statements).rename f := by
  induction statements generalizing b address with
  | nil => rfl
  | cons s rest ih =>
    rw [List.map_cons, emit, emit, Bindings.encode_rename]
    cases b.encode settings s with
    | mk bound result =>
      cases result with
      | error i =>
        -- The pass ends here, with the fault at the place of the statement.
        have hlocate := Interruption.locate_rename (i := i) (s := s) (f := f)
        simp only [Prod.map, Except.mapError, Emission.rename, Option.map_some, ← hlocate]
        rfl
      | ok word =>
        simp only [Prod.map, Except.mapError, ih]
        rfl

/-! ### Runs -/

/-- The run of renamed statements. -/
theorem generate_rename : generate settings (statements.map (·.rename f)) =
    (generate settings statements).rename f := by
  have hlabels : bindLabels .initial 0 (statements.map (·.rename f)) =
      (bindLabels .initial 0 statements).rename f := by
    rw [← bindLabels_rename, SymbolTable.rename_initial]
  rw [generate, generate, hlabels]
  generalize bindLabels .initial 0 statements = labelling
  obtain ⟨symbols, count, fault⟩ := labelling
  cases fault with
  | some i => rfl
  | none =>
    -- The allocation of variables begins at the base, under whatever names.
    simp only [Labelling.rename, Option.map_none]
    rw [← Bindings.rename_mk, emit_rename]
    rfl

namespace Run

theorem result_rename (r : Run) :
    (r.rename f).result = r.result.mapError (Interruption.rename f) := by
  obtain ⟨program, labelled, fault⟩ := r
  cases fault <;> rfl

theorem kept_rename (r : Run) : (r.rename f).kept settings = (r.kept settings).rename f := by
  have hempty : (Program.empty settings).rename f = .empty settings := by
    simp only [Program.empty, Program.rename, SymbolTable.rename_initial]
  obtain ⟨program, labelled, fault⟩ := r
  cases fault with
  | none => rfl
  | some i =>
    cases i with
    | diagnosed d => exact hempty.symm
    | _ => rfl

end Run

namespace Generator

/-- The spelling of symbols does not matter. A run of statements in which labels and operands are
renamed yields the same words, or is ended for the same reason at the same place; the generator then
holds what it would hold otherwise, but for the names in its table. -/
theorem generate_map_rename (f : Renaming) (g : Generator) (statements : List Statement) :
    g.generate (statements.map (·.rename f)) =
      Prod.map (rename f) (Except.mapError (Interruption.rename f)) (g.generate statements) := by
  rw [generate_eq, generate_eq, HackToolchain.generate_rename, Run.kept_rename, Run.result_rename]
  rfl

/-- Statements that declare one name and use it with another one. -/
def declareAndUse (declared used : String) : List Statement :=
  [⟨⟨"a.asm", 1, 1⟩, "@2", .addressLoad "2"⟩, ⟨⟨"a.asm", 2, 1⟩, "(_)", .label declared⟩,
    ⟨⟨"a.asm", 3, 1⟩, "@_", .addressLoad used⟩, ⟨⟨"a.asm", 4, 1⟩, "@_", .addressLoad declared⟩]

def usedWords : List Word :=
  ["0000000000000010", "0000000000010000", "0000000000000001"]

theorem generate_map_rename_swap :
    let f := Renaming.swap "LOOP" "i" (by decide) (by decide)
    let renamed := (start .default).generate ((declareAndUse "LOOP" "i").map (·.rename f))
    (declareAndUse "LOOP" "i").map (·.rename f) = declareAndUse "i" "LOOP" ∧
      renamed.2 = .ok usedWords ∧
      renamed.1.symbols.own.map (fun s => (s.name, s.address, s.kind)) =
        [("i", 1, .label), ("LOOP", 16, .var)] := by
  intro f renamed
  have hrenamed : renamed = Prod.map (rename f) (Except.mapError (Interruption.rename f))
      ((start .default).generate (declareAndUse "LOOP" "i")) :=
    generate_map_rename f (start .default) (declareAndUse "LOOP" "i")
  have hwords : ((start .default).generate (declareAndUse "LOOP" "i")).2 = .ok usedWords := by
    rfl
  refine ⟨rfl, ?_, ?_⟩
  · rw [hrenamed, Prod.map_snd, hwords]
    rfl
  · rw [hrenamed, Prod.map_fst]
    rfl

end Generator

end HackToolchain
