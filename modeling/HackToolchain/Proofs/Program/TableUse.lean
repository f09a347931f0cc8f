import HackToolchain.Proofs.Instruction.AddressWord
import HackToolchain.Proofs.Program.Faults
import HackToolchain.Proofs.Program.History

/-!
# What the second pass asks of the table of symbols

The second pass binds a variable only if its name is not bound, and looks a name up only if it is. It
asks the table before it binds, and a name that it has just bound is there. So whatever the first
pass has left, the table never refuses a variable because its name is taken, and never lacks a name:
a run can end with a duplicate symbol in the first pass only, and never with an unknown symbol.

To say so, the second pass is run once more with a trace. The trace has no effect: what the traced
pass yields is what the pass yields.
-/

namespace HackToolchain

open Denotation Text

variable {settings : Settings} {statements : List Statement} {s : Statement} {operand : String}
variable {b b' : Bindings} {i : Interruption} {d : Diagnostic} {g : Generator} {cause : Cause}

/-- A request to a table of symbols. -/
inductive TableUse where
  /-- A symbol is to be bound. -/
  | define (table : SymbolTable) (symbol : Symbol)
  /-- The address of a name is wanted. -/
  | lookup (table : SymbolTable) (name : String)
  deriving DecidableEq

/-- A request that cannot be refused for the name: one that is bound is wanted, and one that is not
bound is to be bound. -/
def TableUse.IsSafe : TableUse → Prop
  | define table symbol => table.contains symbol.name = false
  | lookup table name => table.contains name = true

/-- The kind and the name of a request. -/
def TableUse.brief : TableUse → String × String
  | define _ symbol => ("define", symbol.name)
  | lookup _ name => ("lookup", name)

/-! ### The traced second pass -/

/-- A result, and the requests that were made for it, in order. -/
structure Traced (α : Type) where
  value : α
  uses : List TableUse

namespace Traced

/-- A result for which nothing is requested. -/
def pure {α : Type} (value : α) : Traced α :=
  ⟨value, []⟩

/-- A result that is computed from another one. -/
def bind {α β : Type} (x : Traced α) (f : α → Traced β) : Traced β :=
  ⟨(f x.value).value, x.uses ++ (f x.value).uses⟩

/-- What is requested on the way to a result, if nothing more is requested behind the first part. -/
theorem uses_bind {α β : Type} {x : Traced α} {f : α → Traced β} (h : ∀ a, (f a).uses = []) :
    (x.bind f).uses = x.uses := by
  rw [bind, h, List.append_nil]

end Traced

/-- Binds a symbol for the sake of a source line, with a trace. -/
def SymbolTable.tracedBind (t : SymbolTable) (s : Symbol) (source : String) :
    Traced (SymbolTable × Except Interruption Unit) :=
  ⟨t.bind ampleMemory s (some source), [.define t s]⟩

namespace Bindings

/-- Looks a name up, with a trace. -/
def tracedLookup (b : Bindings) (name : String) : Traced (Bindings × Except Interruption Int) :=
  ⟨(b, b.lookup name), [.lookup b.symbols name]⟩

/-- The address of an operand, with a trace. -/
def tracedResolve (b : Bindings) (location : Location) (source operand : String) :
    Traced (Bindings × Except Interruption Int) :=
  if Numeral.isLiteral operand then
    match Numeral.readLiteral operand with
    | .ok value => .pure (b, .ok value)
    | .error fault => .pure (b, .error (.numeral fault))
  else if b.symbols.contains operand then b.tracedLookup operand
  else
    let (address, allocator) := b.allocator.allocate
    (b.symbols.tracedBind ⟨operand, address, .var, some location⟩ source).bind fun
      | (symbols, .error i) => .pure (⟨symbols, allocator⟩, .error i)
      | (symbols, .ok ()) =>
        match location.obstacle? with
        | some obstacle => .pure (⟨symbols, allocator⟩, .error (.unwritable obstacle))
        | none => tracedLookup ⟨symbols, allocator⟩ operand

/-- The trace does not change the address. -/
theorem value_tracedResolve (b : Bindings) (location : Location) (source operand : String) :
    (b.tracedResolve location source operand).value = b.resolve location source operand := by
  rw [tracedResolve, resolve]
  split
  · cases Numeral.readLiteral operand <;> rfl
  · split
    · rfl
    · simp only [Traced.bind, SymbolTable.tracedBind]
      cases b.symbols.bind ampleMemory ⟨operand, b.allocator.allocate.1, .var, some location⟩
          (some source) with
      | mk symbols result =>
        cases result with
        | error i => rfl
        | ok => cases location.obstacle? <;> rfl

/-- The word of a statement, with a trace. -/
def tracedEncode (settings : Settings) (b : Bindings) (s : Statement) :
    Traced (Bindings × Except Interruption (Option Word)) :=
  match s.command with
  | .addressLoad operand => (b.tracedResolve s.location s.source operand).bind fun
    | (b, .ok address) => .pure (b, encoded (Word.ofAddress address settings.limit))
    | (b, .error i) => .pure (b, .error i)
  | .compute fields => .pure (b, encoded fields.encode)
  | .label _ | .remark => .pure (b, .ok none)

/-- The trace does not change the word. -/
theorem value_tracedEncode (settings : Settings) (b : Bindings) (s : Statement) :
    (b.tracedEncode settings s).value = b.encode settings s := by
  rw [tracedEncode, encode]
  cases s.command with
  | addressLoad operand =>
    simp only [Traced.bind, value_tracedResolve]
    obtain ⟨bound, result⟩ := b.resolve s.location s.source operand
    cases result <;> rfl
  | compute fields => rfl
  | label name => rfl
  | remark => rfl

end Bindings

namespace Generator

/-- Encodes and lists a statement, with a trace. -/
def tracedEmitStatement (g : Generator) (s : Statement) :
    Traced (Generator × Option Interruption) :=
  (Bindings.tracedEncode g.settings ⟨g.symbols, g.allocator⟩ s).bind fun
    | (b, .error fault) =>
      .pure ({ g with symbols := b.symbols, allocator := b.allocator },
        some (fault.locate s.faultPlace s.source))
    | (b, .ok word) =>
      .pure ({ g with
          symbols := b.symbols
          allocator := b.allocator
          words := g.words ++ word.toList
          listing := g.listing ++ [⟨s.location, s.source, g.words.length, word⟩] }, none)

theorem value_tracedEmitStatement (g : Generator) (s : Statement) :
    (g.tracedEmitStatement s).value = g.emitStatement s := by
  rw [tracedEmitStatement, emitStatement]
  simp only [Traced.bind, Bindings.value_tracedEncode]
  obtain ⟨bound, result⟩ := Bindings.encode g.settings ⟨g.symbols, g.allocator⟩ s
  cases result <;> rfl

/-- The second pass, with a trace. -/
def tracedEmit (g : Generator) : List Statement → Traced (Generator × Option Interruption)
  | [] => .pure (g, none)
  | s :: rest => (g.tracedEmitStatement s).bind fun
    | (g, some fault) => .pure (g, some fault)
    | (g, none) => g.tracedEmit rest

/-- The trace does not change what the second pass yields. -/
theorem value_tracedEmit (g : Generator) (statements : List Statement) :
    (g.tracedEmit statements).value = g.emit statements := by
  induction statements generalizing g with
  | nil => rfl
  | cons s rest ih =>
    rw [tracedEmit, emit]
    simp only [Traced.bind, value_tracedEmitStatement]
    obtain ⟨behind, fault⟩ := g.emitStatement s
    cases fault with
    | none => exact ih behind
    | some fault => rfl

end Generator

/-! ### Every request is safe -/

namespace Bindings

/-- What is requested for an operand is safe: the table is asked before, and what has been bound is
there. -/
theorem isSafe_of_mem_tracedResolve {location : Location} {source : String} {use : TableUse}
    (h : use ∈ (b.tracedResolve location source operand).uses) : use.IsSafe := by
  rw [tracedResolve] at h
  split at h
  · cases hread : Numeral.readLiteral operand <;> simp [hread, Traced.pure] at h
  · split at h
    · next hbound =>
      obtain rfl : use = .lookup b.symbols operand := by simpa [tracedLookup] using h
      exact hbound
    · next hfree =>
      simp only [Traced.bind, SymbolTable.tracedBind, List.mem_append, List.mem_singleton] at h
      rcases h with rfl | h
      · exact Bool.eq_false_iff.2 hfree
      · -- The name is looked up only if it has been bound and announced.
        cases hbind : b.symbols.bind ampleMemory
            ⟨operand, b.allocator.allocate.1, .var, some location⟩ (some source) with
        | mk symbols result =>
          rw [hbind] at h
          cases result with
          | error i => simp [Traced.pure] at h
          | ok =>
            cases hplace : location.obstacle? with
            | some obstacle => simp [hplace, Traced.pure] at h
            | none =>
              obtain rfl : use = .lookup symbols operand := by simpa [hplace, tracedLookup] using h
              have hdefine := SymbolTable.define_of_bind hbind
              exact SymbolTable.contains_of_lookup (SymbolTable.lookup_define hdefine)

theorem isSafe_of_mem_tracedEncode {use : TableUse}
    (h : use ∈ (b.tracedEncode settings s).uses) : use.IsSafe := by
  rw [tracedEncode] at h
  cases hs : s.command with
  | addressLoad operand =>
    simp only [hs] at h
    rw [Traced.uses_bind] at h
    · exact isSafe_of_mem_tracedResolve h
    · rintro ⟨bound, _ | _⟩ <;> rfl
  | compute fields => simp [hs, Traced.pure] at h
  | label name => simp [hs, Traced.pure] at h
  | remark => simp [hs, Traced.pure] at h

end Bindings

namespace Generator

/-- All requests of a second pass are safe, whatever the generator holds when it begins. -/
theorem isSafe_of_mem_tracedEmit {use : TableUse} (h : use ∈ (g.tracedEmit statements).uses) :
    use.IsSafe := by
  induction statements generalizing g with
  | nil => simp [tracedEmit, Traced.pure] at h
  | cons s rest ih =>
    rw [tracedEmit, Traced.bind, List.mem_append] at h
    rcases h with hfirst | hrest
    · rw [tracedEmitStatement, Traced.uses_bind] at hfirst
      · exact Bindings.isSafe_of_mem_tracedEncode hfirst
      · rintro ⟨bound, _ | _⟩ <;> rfl
    · cases hstep : (g.tracedEmitStatement s).value with
      | mk behind fault =>
        rw [hstep] at hrest
        cases fault with
        | none => exact ih hrest
        | some fault => simp [Traced.pure] at hrest

end Generator

/-! ### What the second pass reports -/

namespace Interruption

/-- A fault that is placed keeps its cause. -/
theorem cause_of_locate {place : Cause → Location} {source : String}
    (h : i.locate place source = .diagnosed d) :
    ∃ unplaced, i = .diagnosed unplaced ∧ d.cause = unplaced.cause := by
  cases i with
  | diagnosed unplaced =>
    obtain rfl := eq_of_ofDiagnostic h
    refine ⟨unplaced, rfl, ?_⟩
    rw [Diagnostic.locate]
    split <;> rfl
  | numeral fault => simp [locate] at h
  | negativeAddress address => simp [locate] at h
  | unwritable obstacle => simp [locate] at h

end Interruption

/-- A cause that an encoding has: an address beyond its limit, or an unknown mnemonic. -/
inductive Cause.IsEncoding : Cause → Prop where
  | addressRange (value maximum : Int) : IsEncoding (.addressRange value maximum)
  | unknownMnemonic (field mnemonic : String) (similar : List String) :
    IsEncoding (.unknownMnemonic field mnemonic similar)

namespace Bindings

/-- An operand that is not resolved is not reported: a name is always found, and a variable is refused
for a negative address, or has an address or a place that cannot be written. -/
theorem resolve_ne_diagnosed (b : Bindings) (location : Location) (source operand : String)
    (d : Diagnostic) : (b.resolve location source operand).2 ≠ .error (.diagnosed d) := by
  cases hliteral : Numeral.isLiteral operand with
  | true =>
    rw [resolve_of_isLiteral hliteral]
    cases Numeral.readLiteral operand <;> simp
  | false =>
    cases hbound : b.symbols.contains operand with
    | true =>
      rw [resolve_of_contains hliteral hbound, lookup, SymbolTable.lookup]
      obtain ⟨symbol, hsymbol⟩ := Option.isSome_iff_exists.1 hbound
      simp [hsymbol]
    | false =>
      rw [resolve_of_not_contains hliteral hbound]
      split
      · simpa using Interruption.ofNegative_ne_diagnosed b.allocator.next d
      · cases allocationObstacle? b.allocator.next location <;> simp

/-- What is reported of a statement is a fault of its encoding. -/
theorem cause_of_encode (h : b.encode settings s = (b', .error (.diagnosed d))) :
    d.cause.IsEncoding := by
  rcases encode_eq_error_cases h with ⟨operand, -, hresolve⟩ |
    ⟨operand, address, cause, -, -, hword, hd⟩ | ⟨fields, cause, -, -, hword, hd⟩
  · exact absurd (congrArg Prod.snd hresolve) (resolve_ne_diagnosed b _ _ operand d)
  · obtain rfl := Interruption.eq_of_ofDiagnostic hd.symm
    obtain ⟨-, rfl⟩ := Word.ofAddress_eq_error_iff.1 hword
    exact .addressRange _ _
  · obtain rfl := Interruption.eq_of_ofDiagnostic hd.symm
    obtain ⟨f, -, rfl⟩ := Fields.encode_eq_error_iff.1 hword
    exact .unknownMnemonic _ _ _

end Bindings

namespace Generator

/-- What a second pass reports is a fault of an encoding, whatever the generator holds when it
begins. -/
theorem cause_of_emit (h : (g.emit statements).2 = some (.diagnosed d)) : d.cause.IsEncoding := by
  induction statements generalizing g with
  | nil => simp [emit] at h
  | cons s rest ih =>
    rw [emit, emitStatement] at h
    cases hencode : Bindings.encode g.settings ⟨g.symbols, g.allocator⟩ s with
    | mk bound result =>
      cases result with
      | error fault =>
        simp only [hencode, Option.some.injEq] at h
        obtain ⟨unplaced, rfl, hcause⟩ := Interruption.cause_of_locate h
        rw [hcause]
        exact Bindings.cause_of_encode hencode
      | ok word =>
        simp only [hencode] at h
        exact ih h

/-- A run that reports a fault does so in one of its passes. -/
theorem diagnosed_of_generate (h : (g.generate statements).2 = .error (.diagnosed d)) :
    (g.reset.bindLabels statements).2 = some (.diagnosed d) ∨
      ∃ labelled, g.reset.bindLabels statements = (labelled, none) ∧
        (labelled.emit statements).2 = some (.diagnosed d) := by
  have hpasses : (g.reset.passes statements).2 = some (.diagnosed d) := by
    rw [generate] at h
    cases hpasses : g.reset.passes statements with
    | mk behind fault =>
      rw [hpasses] at h
      cases fault with
      | none => simp at h
      | some fault => cases fault <;> simp_all
  rw [passes] at hpasses
  cases hlabels : g.reset.bindLabels statements with
  | mk labelled fault =>
    rw [hlabels] at hpasses
    cases fault with
    | some fault => exact .inl hpasses
    | none => exact .inr ⟨labelled, rfl, hpasses⟩

/-- What the first pass reports is a declaration of a name that is bound by then, to another
address. -/
theorem conflict_of_bindLabels (h : (g.reset.bindLabels statements).2 = some (.diagnosed d)) :
    ∃ before s after name existing labelled, statements = before ++ s :: after ∧
      s.command = .label name ∧ g.reset.bindLabels before = (labelled, none) ∧
      labelled.symbols.find? name = some existing ∧ existing.address ≠ labelled.instructionCount ∧
      d = Symbol.conflict ⟨name, labelled.instructionCount, .label, some s.location⟩ existing
        (some s.source) := by
  have hfault : (HackToolchain.bindLabels .initial 0 statements).fault = some (.diagnosed d) := by
    rw [bindLabels] at h
    simp only [reset] at h
    cases hlabels : (HackToolchain.bindLabels .initial 0 statements).fault <;> simp_all
  rw [fault_bindLabels_initial] at hfault
  obtain ⟨before, s, after, hsplit, hbefore, hs⟩ := firstFault?_eq_some_iff.1 hfault
  obtain ⟨name, existing, hlabel, hfind, hne, rfl⟩ :=
    conflict?_eq_some_iff.1 (conflict?_of_labelFault? hs)
  rw [List.nil_append] at hfind hne
  -- No declaration fails before, so the table is that of the labels declared there.
  have hlabels : HackToolchain.bindLabels .initial 0 before =
      ⟨labelTable before, Denotation.instructionCount before, none⟩ :=
    bindLabels_initial (by rw [fault_bindLabels_initial, hbefore])
  have hbound : g.reset.bindLabels before =
      ({ g.reset with
          symbols := labelTable before
          instructionCount := Denotation.instructionCount before }, none) := by
    rw [bindLabels]
    simp only [reset, hlabels]
  exact ⟨before, s, after, name, existing, _, hsplit, hlabel, hbound, hfind, hne, rfl⟩

/-- A run never reports an unknown symbol. It reports a duplicate symbol only in the first pass, for a
declaration of a name that is bound by then to another address than the number of instructions before
it. In the second pass, every variable is bound under a name that is not bound, and every name that
is looked up is bound. -/
theorem symbolErrors_generate (g : Generator) (statements : List Statement) :
    (∀ d, (g.generate statements).2 = .error (.diagnosed d) →
      (∀ name, d.cause ≠ .unknownSymbol name) ∧
      ∀ name address existing first, d.cause = .duplicateSymbol name address existing first →
        (g.reset.bindLabels statements).2 = some (.diagnosed d) ∧
        ∃ before s after labelled, statements = before ++ s :: after ∧ s.command = .label name ∧
          d.location = some s.location ∧ d.sourceLine = some s.source ∧
          g.reset.bindLabels before = (labelled, none) ∧ address = labelled.instructionCount ∧
          labelled.symbols.lookup name = .ok existing ∧ existing ≠ address) ∧
    ∀ labelled, g.reset.bindLabels statements = (labelled, none) →
      (labelled.tracedEmit statements).value = labelled.emit statements ∧
      ∀ use ∈ (labelled.tracedEmit statements).uses, use.IsSafe := by
  refine ⟨fun d h => ?_, fun labelled _ =>
    ⟨value_tracedEmit labelled statements, fun use => isSafe_of_mem_tracedEmit⟩⟩
  rcases diagnosed_of_generate h with hfirst | ⟨labelled, -, hsecond⟩
  · obtain ⟨before, s, after, name, existing, labelled, hsplit, hs, hbound, hfind, hne, rfl⟩ :=
      conflict_of_bindLabels hfirst
    refine ⟨by simp [Symbol.conflict], fun _ _ _ _ hcause => ?_⟩
    obtain ⟨rfl, rfl, rfl, rfl⟩ := Cause.duplicateSymbol.inj hcause
    refine ⟨hfirst, before, s, after, labelled, hsplit, hs, rfl, rfl, hbound, rfl, ?_, hne⟩
    rw [SymbolTable.lookup, hfind]
  · -- The second pass reports encodings only.
    have hencoding := cause_of_emit hsecond
    refine ⟨fun name hcause => ?_, fun _ _ _ _ hcause => ?_⟩
    · rw [hcause] at hencoding
      cases hencoding
    · rw [hcause] at hencoding
      cases hencoding

/-- A label, a variable that is used twice, and a reference to the label. -/
def requestingProgram : List Statement :=
  [⟨⟨"a.asm", 1, 1⟩, "(A)", .label "A"⟩, ⟨⟨"a.asm", 2, 1⟩, "@x", .addressLoad "x"⟩,
    ⟨⟨"a.asm", 3, 1⟩, "@x", .addressLoad "x"⟩, ⟨⟨"a.asm", 4, 1⟩, "@A", .addressLoad "A"⟩]

/-- A label that is declared twice is reported in the first pass. The requests of a second pass are a
binding and a lookup for a new variable, and a lookup for a name that is bound; with a base below
zero the binding is refused, and nothing is looked up. -/
theorem symbolErrors_generate_requestingProgram :
    let g := start .default
    let below := start { Settings.default with variableBase := -1 }
    let labelled := (g.reset.bindLabels requestingProgram).1
    let shifted := (below.reset.bindLabels requestingProgram).1
    (∃ d, (g.generate twiceDeclared).2 = .error (.diagnosed d) ∧
      d.cause = .duplicateSymbol "A" 1 0 (some ⟨"a.asm", 1, 1⟩) ∧
      (g.reset.bindLabels twiceDeclared).2 = some (.diagnosed d)) ∧
    (labelled.tracedEmit requestingProgram).uses.map TableUse.brief =
      [("define", "x"), ("lookup", "x"), ("lookup", "x"), ("lookup", "A")] ∧
    (∀ use ∈ (labelled.tracedEmit requestingProgram).uses, use.IsSafe) ∧
    (below.generate requestingProgram).2 = .error (.negativeAddress (-1)) ∧
    (shifted.tracedEmit requestingProgram).uses.map TableUse.brief = [("define", "x")] ∧
    ∀ use ∈ (shifted.tracedEmit requestingProgram).uses, use.IsSafe := by
  intro g below labelled shifted
  let d : Diagnostic :=
    ⟨.duplicateSymbol "A" 1 0 (some ⟨"a.asm", 1, 1⟩), some ⟨"a.asm", 3, 1⟩, some "(A)"⟩
  have hreported : (g.generate twiceDeclared).2 = .error (.diagnosed d) := by decide +kernel
  have hlabelled : g.reset.bindLabels requestingProgram = (labelled, none) := by decide +kernel
  have hshifted : below.reset.bindLabels requestingProgram = (shifted, none) := by decide +kernel
  obtain ⟨hduplicate, -⟩ := symbolErrors_generate g twiceDeclared
  obtain ⟨-, hsafe⟩ := symbolErrors_generate g requestingProgram
  obtain ⟨-, hsafeBelow⟩ := symbolErrors_generate below requestingProgram
  exact ⟨⟨d, hreported, rfl, ((hduplicate d hreported).2 _ _ _ _ rfl).1⟩, by decide +kernel,
    (hsafe labelled hlabelled).2, by decide +kernel, by decide +kernel,
    (hsafeBelow shifted hshifted).2⟩

end Generator

end HackToolchain
