import HackToolchain.Diagnostic
import HackToolchain.Machine

/-!
# The symbol table

Everything that a symbolic operand can name shares one table: the predefined symbols, the labels and
the variables. A binding is never changed or removed. Binding a name again to its own address
changes nothing, and binding it to another address is a conflict, even if that address is negative;
a new name is not bound to a negative address.
-/

namespace HackToolchain

/-- How a symbol came to be bound. -/
inductive SymbolKind where
  | predefined
  | label
  | var
  deriving DecidableEq

namespace SymbolKind

/-- The name of a kind. -/
def name : SymbolKind → String
  | predefined => "predefined"
  | label => "label"
  | var => "variable"

/-- The kind of a name. -/
def ofName? (s : String) : Option SymbolKind :=
  [predefined, label, var].find? fun k => k.name == s

end SymbolKind

/-- A name bound to an address; the predefined symbols have no place. -/
structure Symbol where
  name : String
  address : Int
  kind : SymbolKind
  location : Option Location
  deriving DecidableEq

/-- The bindings in the order in which they were made. -/
structure SymbolTable where
  entries : List Symbol
  deriving DecidableEq

namespace SymbolTable

/-- The table of some predefined symbols. -/
def ofSeed (seed : List (String × Int)) : SymbolTable :=
  ⟨seed.map fun s => ⟨s.1, s.2, .predefined, none⟩⟩

/-- The table with which every program starts. -/
def initial : SymbolTable :=
  ofSeed Machine.predefined

/-- The binding of a name. -/
def find? (t : SymbolTable) (name : String) : Option Symbol :=
  t.entries.find? fun s => s.name == name

theorem name_of_find? {t : SymbolTable} {name : String} {s : Symbol}
    (h : t.find? name = some s) : s.name = name := by
  simpa using List.find?_some h

theorem mem_entries_of_find? {t : SymbolTable} {name : String} {s : Symbol}
    (h : t.find? name = some s) : s ∈ t.entries :=
  List.mem_of_find?_eq_some h

/-- Whether a name is bound. -/
def contains (t : SymbolTable) (name : String) : Bool :=
  (t.find? name).isSome

/-- The address of a name. -/
def lookup (t : SymbolTable) (name : String) : Except Cause Int :=
  match t.find? name with
  | some s => .ok s.address
  | none => .error (.unknownSymbol name)

theorem contains_of_lookup {t : SymbolTable} {name : String} {address : Int}
    (h : t.lookup name = .ok address) : t.contains name = true := by
  rw [lookup] at h
  cases hfind : t.find? name with
  | some s => rw [contains, hfind, Option.isSome_some]
  | none => simp [hfind] at h

/-- Why a binding is refused. -/
inductive Refusal where
  /-- The name is bound to another address. -/
  | conflict (existing : Symbol)
  /-- The name is new and its address is negative. -/
  | negative
  deriving DecidableEq

/-- Adds a binding. -/
def define (t : SymbolTable) (s : Symbol) : Except Refusal SymbolTable :=
  -- A binding that is at hand decides first, so only a new name can have a negative address.
  match t.find? s.name with
  | some existing => if existing.address = s.address then .ok t else .error (.conflict existing)
  | none => if s.address < 0 then .error .negative else .ok ⟨t.entries ++ [s]⟩

/-- A binding that is accepted is at hand already, or new and put at the end. -/
theorem define_eq_ok_iff {t t' : SymbolTable} {s : Symbol} :
    t.define s = .ok t' ↔
      (∃ e, t.find? s.name = some e ∧ e.address = s.address ∧ t' = t) ∨
        (t.find? s.name = none ∧ 0 ≤ s.address ∧ t' = ⟨t.entries ++ [s]⟩) := by
  unfold define
  cases t.find? s.name with
  | some e =>
    by_cases h : e.address = s.address
    · simp [h, eq_comm]
    · simp [h]
  | none =>
    by_cases h : s.address < 0
    · simp [h, Int.not_le.2 h]
    · simp [h, Int.not_lt.1 h, eq_comm]

/-- Once a binding is accepted, its name has its address. -/
theorem lookup_define {t t' : SymbolTable} {s : Symbol} (h : t.define s = .ok t') :
    t'.lookup s.name = .ok s.address := by
  rcases define_eq_ok_iff.1 h with ⟨e, he, hs, rfl⟩ | ⟨hn, _, rfl⟩
  · simp [lookup, he, hs]
  · simp only [find?] at hn
    simp [lookup, find?, List.find?_append, hn]

/-- The bindings of one kind, or all of them. -/
def ofKind (t : SymbolTable) (kind : Option SymbolKind) : List Symbol :=
  t.entries.filter fun s => kind.all (· == s.kind)

/-- The bindings that a program made itself. -/
def own (t : SymbolTable) : List Symbol :=
  t.entries.filter fun s => s.kind != .predefined

/-- Bindings in the order of their names. -/
def sorted (symbols : List Symbol) : List Symbol :=
  symbols.mergeSort fun s t => s.name ≤ t.name

end SymbolTable

/-- The diagnostic of a binding that conflicts with an existing one. -/
def Symbol.conflict (s existing : Symbol) (sourceLine : Option String) : Diagnostic where
  cause := .duplicateSymbol s.name s.address existing.address existing.location
  location := s.location
  sourceLine := sourceLine

end HackToolchain
