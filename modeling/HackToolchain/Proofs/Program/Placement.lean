import HackToolchain.Proofs.Program.EarlyEnd
import Mathlib.Data.List.Forall2

/-!
# Programs at other places

Where a statement stands, and how its line is written, matters to diagnostics and listings only. Two
lists of the same commands are assembled alike: they bind the same names to the same addresses and
yield the same words, or they fail at the same command for the same cause.

Places are compared by taking them off. The two passes keep step with each other: at every statement
both have the same symbols but for their places. Whether a message can be written is the one thing
that could depend on a place, so the places have to be short enough to be written, and every caret has
to stand within its source line.
-/

namespace HackToolchain

open Text

variable {settings : Settings} {statements statements' : List Statement} {s s' : Statement}
variable {t t' : SymbolTable} {b b' : Bindings} {i : Interruption}
variable {d d' : Diagnostic} {name operand : String} {n address : Nat}

/-! ### Taking places off -/

def Symbol.unplaced (s : Symbol) : Symbol :=
  { s with location := none }

def SymbolTable.unplaced (t : SymbolTable) : SymbolTable :=
  ⟨t.entries.map Symbol.unplaced⟩

def SymbolTable.Refusal.unplaced : Refusal → Refusal
  | conflict existing => conflict existing.unplaced
  | negative => negative

/-- A cause that does not tell where a symbol was bound first. -/
def Cause.unplaced : Cause → Cause
  | duplicateSymbol name address existing _ => duplicateSymbol name address existing none
  | other => other

/-- The cause of a diagnostic, without the place and the source line. -/
def Diagnostic.unplaced (d : Diagnostic) : Diagnostic :=
  .ofCause d.cause.unplaced

def Interruption.unplaced : Interruption → Interruption
  | diagnosed d => diagnosed d.unplaced
  | other => other

/-- A listed address and word. -/
def ListingLine.unplaced (l : ListingLine) : ListingLine :=
  { l with location := ⟨"", 0, 0⟩, source := "" }

def Bindings.unplaced (b : Bindings) : Bindings :=
  { b with symbols := b.symbols.unplaced }

def Labelling.unplaced (l : Labelling) : Labelling :=
  { l with symbols := l.symbols.unplaced, fault := l.fault.map (·.unplaced) }

def Emission.unplaced (e : Emission) : Emission :=
  ⟨e.bindings.unplaced, e.listing.map (·.unplaced), e.fault.map (·.unplaced)⟩

def Program.unplaced (p : Program) : Program :=
  { p with symbols := p.symbols.unplaced, listing := p.listing.map (·.unplaced) }

def Run.unplaced (r : Run) : Run :=
  { r with program := r.program.unplaced, fault := r.fault.map (·.unplaced) }

theorem Cause.detail_unplaced (c : Cause) : c.unplaced.detail = c.detail := by
  cases c <;> rfl

theorem Program.words_unplaced (p : Program) : p.unplaced.words = p.words := by
  rw [words, words, unplaced, List.filterMap_map]
  rfl

namespace Run

variable {r r' : Run}

theorem fault_of_unplaced_eq (h : r.unplaced = r'.unplaced) :
    r.fault.map (·.unplaced) = r'.fault.map (·.unplaced) :=
  congrArg Run.fault h

theorem words_of_unplaced_eq (h : r.unplaced = r'.unplaced) :
    r.program.words = r'.program.words := by
  have hprogram : r.program.unplaced = r'.program.unplaced := congrArg Run.program h
  rw [← r.program.words_unplaced, hprogram, r'.program.words_unplaced]

/-- Two runs that only differ in places have the same words, or end early for the same cause. -/
theorem result_of_unplaced_eq (h : r.unplaced = r'.unplaced) :
    (∃ words, r.result = .ok words ∧ r'.result = .ok words) ∨
      ∃ i i', r.result = .error i ∧ r'.result = .error i' ∧ i'.unplaced = i.unplaced := by
  have hfault := fault_of_unplaced_eq h
  rw [result, result, words_of_unplaced_eq h]
  cases hr : r.fault with
  | none =>
    rw [hr, Option.map_none, eq_comm, Option.map_eq_none_iff] at hfault
    rw [hfault]
    exact .inl ⟨_, rfl, rfl⟩
  | some i =>
    rw [hr, Option.map_some, eq_comm, Option.map_eq_some_iff] at hfault
    obtain ⟨i', hr', hsame⟩ := hfault
    rw [hr']
    exact .inr ⟨i, i', rfl, rfl, hsame⟩

/-- Two runs that only differ in places leave programs that only differ in places. -/
theorem kept_of_unplaced_eq (h : r.unplaced = r'.unplaced) :
    (r.kept settings).unplaced = (r'.kept settings).unplaced := by
  have hprogram : r.program.unplaced = r'.program.unplaced := congrArg Run.program h
  have hfault := fault_of_unplaced_eq h
  rw [kept, kept]
  cases hr : r.fault with
  | none =>
    rw [hr, Option.map_none, eq_comm, Option.map_eq_none_iff] at hfault
    rw [hfault]
    exact hprogram
  | some i =>
    rw [hr, Option.map_some, eq_comm, Option.map_eq_some_iff] at hfault
    obtain ⟨i', hr', hsame⟩ := hfault
    rw [hr']
    cases i <;> cases i' <;> first | rfl | exact hprogram | cases hsame

end Run

/-! ### The table -/

namespace SymbolTable

theorem find?_unplaced : t.unplaced.find? name = (t.find? name).map Symbol.unplaced := by
  rw [find?, find?, unplaced, List.find?_map]
  rfl

theorem contains_unplaced : t.unplaced.contains name = t.contains name := by
  rw [contains, contains, find?_unplaced, Option.isSome_map]

theorem lookup_unplaced : t.unplaced.lookup name = t.lookup name := by
  rw [lookup, lookup, find?_unplaced]
  cases t.find? name <;> rfl

/-- A name is bound in both of two tables that only differ in places, to one address, or in neither. -/
theorem find?_cases_of_unplaced_eq (name : String) (h : t.unplaced = t'.unplaced) :
    (t.find? name = none ∧ t'.find? name = none) ∨
      ∃ existing existing', t.find? name = some existing ∧ t'.find? name = some existing' ∧
        existing.address = existing'.address := by
  have hfind : (t.find? name).map Symbol.unplaced = (t'.find? name).map Symbol.unplaced := by
    rw [← find?_unplaced, h, find?_unplaced]
  cases hexisting : t.find? name with
  | none =>
    rw [hexisting, Option.map_none, eq_comm, Option.map_eq_none_iff] at hfind
    exact .inl ⟨rfl, hfind⟩
  | some existing =>
    rw [hexisting, Option.map_some, eq_comm, Option.map_eq_some_iff] at hfind
    obtain ⟨existing', hexisting', hsame⟩ := hfind
    exact .inr ⟨existing, existing', rfl, hexisting', (congrArg Symbol.address hsame).symm⟩

end SymbolTable

/-! ### Faults -/

/-- A statement whose place can be written, and whose diagnostics point into its source line or
directly behind it. -/
structure Statement.Fits (s : Statement) : Prop where
  place : s.location.IsWritable
  caret : ∀ cause, (s.faultPlace cause).column ≤ s.source.toList.length + 1

/-- Two statements with the same command, both of which fit. -/
structure Statement.Alike (s s' : Statement) : Prop where
  command_eq : s.command = s'.command
  fits : s.Fits
  fits' : s'.Fits

/-- The place of a fault can be written at both places of a command, or at neither. -/
theorem Statement.Alike.obstacle?_faultPlace (h : s.Alike s') (cause : Cause) :
    (s.faultPlace cause).obstacle? = (s'.faultPlace cause).obstacle? := by
  have hline := numberObstacle?_eq_none_iff.2 h.fits.place.1
  have hline' := numberObstacle?_eq_none_iff.2 h.fits'.place.1
  have hcolumn := numberObstacle?_eq_none_iff.2 h.fits.place.2
  have hcolumn' := numberObstacle?_eq_none_iff.2 h.fits'.place.2
  -- The column is that of the statement itself, or it is found in the command.
  simp only [Location.obstacle?, Location.numbers, Statement.faultPlace, Location.atColumn,
    List.findSome?_cons, List.findSome?_nil, hline, hline', ← h.command_eq]
  cases s.command with
  | addressLoad operand => rfl
  | compute fields => rfl
  | label name => simp only [Command.faultColumn, hcolumn, hcolumn']
  | remark => simp only [Command.faultColumn, hcolumn, hcolumn']

namespace Interruption

/-- Diagnostics that can be written alike interrupt alike. -/
theorem unplaced_ofDiagnostic {memory : Int} (hobstacle : d.obstacle? memory = d'.obstacle? memory)
    (h : d.unplaced = d'.unplaced) :
    (ofDiagnostic memory d).unplaced = (ofDiagnostic memory d').unplaced := by
  rw [ofDiagnostic, ofDiagnostic, hobstacle]
  cases d'.obstacle? memory with
  | some obstacle => rfl
  | none => exact congrArg diagnosed h

/-- A fault of a command is the same at both of its places. -/
theorem unplaced_locate (h : s.Alike s') :
    (i.locate s.faultPlace s.source).unplaced = (i.locate s'.faultPlace s'.source).unplaced := by
  cases i with
  | diagnosed d =>
    obtain ⟨cause, location, line⟩ := d
    cases location with
    | some place => rfl
    | none =>
      -- The caret is no obstacle, so only the numbers of the cause and of the place can be one.
      have hcaret : Diagnostic.caretObstacle? ampleMemory (some (s.faultPlace cause))
          (some s.source) = none := Diagnostic.caretObstacle?_eq_none (h.fits.caret cause)
      have hcaret' : Diagnostic.caretObstacle? ampleMemory (some (s'.faultPlace cause))
          (some s'.source) = none := Diagnostic.caretObstacle?_eq_none (h.fits'.caret cause)
      have hplace := h.obstacle?_faultPlace cause
      refine unplaced_ofDiagnostic ?_ rfl
      rw [Location.obstacle?, Location.obstacle?] at hplace
      simp only [Diagnostic.locate, Diagnostic.obstacle?, Diagnostic.numbers, Option.map_some,
        Option.getD_some, List.findSome?_append, hcaret, hcaret', hplace]
  | numeral fault => rfl
  | negativeAddress address => rfl
  | unwritable obstacle => rfl

end Interruption

/-! ### The first pass -/

/-- A declaration is in conflict with the same symbol at both of its places. -/
theorem unplaced_ofDiagnostic_conflict {existing existing' : Symbol} (h : s.Alike s')
    (hs : s.command = .label name) (ht : existing.IsTraceable) (ht' : existing'.IsTraceable)
    (hsame : existing.address = existing'.address) :
    (Interruption.ofDiagnostic ampleMemory
        (Symbol.conflict ⟨name, n, .label, some s.location⟩ existing (some s.source))).unplaced =
      (Interruption.ofDiagnostic ampleMemory
        (Symbol.conflict ⟨name, n, .label, some s'.location⟩ existing' (some s'.source))).unplaced := by
  have hs' : s'.command = .label name := h.command_eq ▸ hs
  -- The diagnostic of a declaration is placed where its statement begins.
  have hcolumn : s.location.column ≤ s.source.toList.length + 1 := by
    simpa [Statement.faultPlace, Location.atColumn, Command.faultColumn, hs]
      using h.fits.caret (.unknownSymbol name)
  have hcolumn' : s'.location.column ≤ s'.source.toList.length + 1 := by
    simpa [Statement.faultPlace, Location.atColumn, Command.faultColumn, hs']
      using h.fits'.caret (.unknownSymbol name)
  refine Interruption.unplaced_ofDiagnostic ?_ ?_
  · rw [Symbol.obstacle?_conflict_eq_none_iff.2 (ht.isDescribable rfl h.fits.place hcolumn),
      Symbol.obstacle?_conflict_eq_none_iff.2 (ht'.isDescribable rfl h.fits'.place hcolumn')]
  · simp only [Diagnostic.unplaced, Symbol.conflict, Cause.unplaced, hsame]

/-- A label is bound or refused wherever it is declared. -/
theorem bind_of_alike (h : s.Alike s') (hs : s.command = .label name)
    (hsame : t.unplaced = t'.unplaced) (ht : t.IsTraceable) (ht' : t'.IsTraceable) :
    let bound := t.bind ampleMemory ⟨name, n, .label, some s.location⟩ (some s.source)
    let bound' := t'.bind ampleMemory ⟨name, n, .label, some s'.location⟩ (some s'.source)
    bound.1.unplaced = bound'.1.unplaced ∧
      bound.2.mapError Interruption.unplaced = bound'.2.mapError Interruption.unplaced := by
  intro bound bound'
  rcases SymbolTable.find?_cases_of_unplaced_eq name hsame with ⟨hnone, hnone'⟩ |
    ⟨existing, existing', hexisting, hexisting', haddress⟩
  · have hcount : ¬ (n : Int) < 0 := by omega
    have hentries : t.entries.map Symbol.unplaced = t'.entries.map Symbol.unplaced :=
      congrArg SymbolTable.entries hsame
    simp only [bound, bound', SymbolTable.bind_of_find?_eq_none (s := ⟨name, n, .label, _⟩) hnone,
      SymbolTable.bind_of_find?_eq_none (s := ⟨name, n, .label, _⟩) hnone', if_neg hcount]
    exact ⟨by simp [SymbolTable.unplaced, hentries, Symbol.unplaced], trivial⟩
  · simp only [bound, bound', SymbolTable.bind_of_find?_eq_some (s := ⟨name, n, .label, _⟩) hexisting,
      SymbolTable.bind_of_find?_eq_some (s := ⟨name, n, .label, _⟩) hexisting', ← haddress]
    refine ⟨hsame, ?_⟩
    split
    · rfl
    · exact congrArg Except.error (unplaced_ofDiagnostic_conflict h hs (ht.of_find? hexisting)
        (ht'.of_find? hexisting') haddress)

/-- The first passes over two lists of the same commands. -/
theorem bindLabels_of_alike (h : List.Forall₂ Statement.Alike statements statements')
    (hsame : t.unplaced = t'.unplaced) (ht : t.IsTraceable) (ht' : t'.IsTraceable) :
    (bindLabels t n statements).unplaced = (bindLabels t' n statements').unplaced := by
  induction h generalizing t t' n with
  | nil => simp only [bindLabels, Labelling.unplaced, hsame, Option.map_none]
  | @cons s s' rest rest' hs _ ih =>
    cases hlabel : s.command.labelName? with
    | none =>
      rw [bindLabels_cons_of_labelName? hlabel,
        bindLabels_cons_of_labelName? (hs.command_eq ▸ hlabel), hs.command_eq]
      exact ih hsame ht ht'
    | some name =>
      have hcommand := Command.labelName?_eq_some_iff.1 hlabel
      have hcommand' := hs.command_eq ▸ hcommand
      obtain ⟨hnext, hresult⟩ := bind_of_alike (n := n) hs hcommand hsame ht ht'
      -- The tables stay traceable, since both places can be written.
      have hbound : (t.bind ampleMemory ⟨name, n, .label, some s.location⟩
          (some s.source)).1.IsTraceable := ht.bind (.of_location rfl hs.fits.place)
      have hbound' : (t'.bind ampleMemory ⟨name, n, .label, some s'.location⟩
          (some s'.source)).1.IsTraceable := ht'.bind (.of_location rfl hs.fits'.place)
      simp only [bindLabels, hcommand, hcommand']
      cases hbind : t.bind ampleMemory ⟨name, n, .label, some s.location⟩ (some s.source) with
      | mk bound result =>
        cases hbind' : t'.bind ampleMemory ⟨name, n, .label, some s'.location⟩ (some s'.source) with
        | mk bound' result' =>
          rw [hbind, hbind'] at hnext hresult
          rw [hbind] at hbound
          rw [hbind'] at hbound'
          cases result <;> cases result'
          case ok.ok => exact ih hnext hbound hbound'
          case error.error i i' =>
            simp only [Labelling.unplaced, Option.map_some, hnext, Except.error.inj hresult]
          case ok.error => cases hresult
          case error.ok => cases hresult

/-! ### The second pass -/

namespace Bindings

theorem lookup_of_unplaced_eq (h : b.unplaced = b'.unplaced) : b.lookup name = b'.lookup name := by
  have hsymbols : b.symbols.unplaced = b'.symbols.unplaced := congrArg Bindings.symbols h
  rw [lookup, lookup, ← SymbolTable.lookup_unplaced, hsymbols, SymbolTable.lookup_unplaced]

/-- An operand has the same address wherever it stands, and becomes the same variable. -/
theorem resolve_of_unplaced_eq {place place' : Location} (h : b.unplaced = b'.unplaced)
    (hplace : place.IsWritable) (hplace' : place'.IsWritable) (source source' operand : String) :
    (b.resolve place source operand).1.unplaced = (b'.resolve place' source' operand).1.unplaced ∧
      (b.resolve place source operand).2 = (b'.resolve place' source' operand).2 := by
  have hsymbols : b.symbols.unplaced = b'.symbols.unplaced := congrArg Bindings.symbols h
  have hallocator : b.unplaced.allocator = b'.unplaced.allocator := congrArg Bindings.allocator h
  simp only [unplaced] at hallocator
  have hcontains : b.symbols.contains operand = b'.symbols.contains operand := by
    rw [← SymbolTable.contains_unplaced, hsymbols, SymbolTable.contains_unplaced]
  cases hliteral : Text.Numeral.isLiteral operand with
  | true =>
    rw [resolve_of_isLiteral hliteral, resolve_of_isLiteral hliteral]
    exact ⟨h, rfl⟩
  | false =>
    cases hbound : b.symbols.contains operand with
    | true =>
      rw [resolve_of_contains hliteral hbound, resolve_of_contains hliteral (hcontains ▸ hbound)]
      exact ⟨h, lookup_of_unplaced_eq h⟩
    | false =>
      rw [resolve_of_not_contains hliteral hbound,
        resolve_of_not_contains hliteral (hcontains ▸ hbound), hallocator]
      split
      · exact ⟨congrArg (Bindings.mk · _) hsymbols, rfl⟩
      · have hentries := congrArg SymbolTable.entries hsymbols
        simp only [SymbolTable.unplaced] at hentries
        rw [allocationObstacle?, allocationObstacle?, Location.obstacle?_eq_none_iff.2 hplace,
          Location.obstacle?_eq_none_iff.2 hplace']
        simp [unplaced, SymbolTable.unplaced, hentries, Symbol.unplaced]

/-- One statement of the second pass. -/
theorem encode_of_unplaced_eq (settings : Settings) (h : b.unplaced = b'.unplaced)
    (hs : s.Alike s') :
    (b.encode settings s).1.unplaced = (b'.encode settings s').1.unplaced ∧
      (b.encode settings s).2 = (b'.encode settings s').2 := by
  rw [encode, encode, ← hs.command_eq]
  cases s.command with
  | addressLoad operand =>
    obtain ⟨hbindings, hresult⟩ :=
      resolve_of_unplaced_eq h hs.fits.place hs.fits'.place s.source s'.source operand
    cases hresolve : b.resolve s.location s.source operand with
    | mk bound result =>
      cases hresolve' : b'.resolve s'.location s'.source operand with
      | mk bound' result' =>
        rw [hresolve, hresolve'] at hbindings hresult
        obtain rfl : result = result' := hresult
        simp only [hresolve, hresolve']
        cases result <;> exact ⟨hbindings, rfl⟩
  | compute fields => exact ⟨h, rfl⟩
  | label name => exact ⟨h, rfl⟩
  | remark => exact ⟨h, rfl⟩

end Bindings

/-- The second passes over two lists of the same commands. -/
theorem emit_of_alike (settings : Settings) (n : Nat)
    (h : List.Forall₂ Statement.Alike statements statements') (hsame : b.unplaced = b'.unplaced) :
    (emit settings b n statements).unplaced = (emit settings b' n statements').unplaced := by
  induction h generalizing b b' n with
  | nil => simp only [emit, Emission.unplaced, hsame, List.map_nil, Option.map_none]
  | @cons s s' rest rest' hs _ ih =>
    obtain ⟨hbindings, hresult⟩ :=
      Bindings.encode_of_unplaced_eq settings hsame hs
    rw [emit, emit]
    cases hencode : b.encode settings s with
    | mk bound result =>
      cases hencode' : b'.encode settings s' with
      | mk bound' result' =>
        rw [hencode, hencode'] at hbindings hresult
        obtain rfl : result = result' := hresult
        cases result with
        | error i =>
          simp only [Emission.unplaced, List.map_nil, Option.map_some,
            Interruption.unplaced_locate hs]
          exact congrArg (Emission.mk · [] _) hbindings
        | ok word =>
          have hrest := ih (if word.isSome then n + 1 else n) hbindings
          simp only [Emission.unplaced, Emission.mk.injEq] at hrest
          simp only [Emission.unplaced, Emission.mk.injEq, List.map_cons, List.cons.injEq]
          exact ⟨hrest.1, ⟨rfl, hrest.2.1⟩, hrest.2.2⟩

/-! ### Runs -/

/-- Two lists of the same commands are assembled alike. -/
theorem generate_of_alike (settings : Settings)
    (h : List.Forall₂ Statement.Alike statements statements') :
    (generate settings statements).unplaced = (generate settings statements').unplaced := by
  have hlabels := bindLabels_of_alike (n := 0) h rfl SymbolTable.isTraceable_initial
    SymbolTable.isTraceable_initial
  rw [generate, generate]
  cases hbound : bindLabels .initial 0 statements with
  | mk symbols count fault =>
    cases hbound' : bindLabels .initial 0 statements' with
    | mk symbols' count' fault' =>
      rw [hbound, hbound'] at hlabels
      simp only [Labelling.unplaced, Labelling.mk.injEq] at hlabels
      obtain ⟨hsymbols, rfl, hfault⟩ := hlabels
      cases fault with
      | some i =>
        cases fault' with
        | none => simp at hfault
        | some i' =>
          simp only [Run.unplaced, Program.unplaced, hsymbols, hfault, List.map_nil]
      | none =>
        cases fault' with
        | some i' => simp at hfault
        | none =>
          have hstart : (⟨symbols, .ofBase settings.variableBase Machine.reserved⟩ :
              Bindings).unplaced = Bindings.unplaced ⟨symbols', _⟩ :=
            congrArg (Bindings.mk · _) hsymbols
          have hemission := emit_of_alike settings 0 h hstart
          simp only [Emission.unplaced, Emission.mk.injEq, Bindings.unplaced,
            Bindings.mk.injEq] at hemission
          simp only [Run.unplaced, Program.unplaced, hemission.1.1, hemission.1.2, hemission.2.1,
            hemission.2.2]

end HackToolchain
