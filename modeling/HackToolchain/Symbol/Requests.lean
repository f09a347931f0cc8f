import HackToolchain.Failure

/-!
# Requests to a symbol table

A symbol table may be used on its own. Symbols are bound, and the bindings are looked at by name, by
kind or all together, in any order. Every request has an answer; a binding that fails and a name that
is not bound are refused with their failures. A symbol may be bound for the sake of any place, so the
size of the memory matters to what can be reported.
-/

namespace HackToolchain.SymbolTable

/-- The names of a table and their addresses, in binding order. -/
def addresses (t : SymbolTable) : List (String × Int) :=
  t.entries.map fun s => (s.name, s.address)

/-- The names of a table, in binding order. -/
def names (t : SymbolTable) : List String :=
  t.entries.map (·.name)

/-- The number of bindings. -/
def size (t : SymbolTable) : Nat :=
  t.entries.length

/-- The ways to look at a table. -/
inductive View where
  | contains (name : String)
  | binding (name : String)
  | address (name : String)
  /-- The bindings of one kind, or all of them. -/
  | bindings (kind : Option SymbolKind)
  | addresses
  | names
  | size

/-- What a table is asked. -/
inductive Request where
  /-- A symbol is to be bound, for the sake of a source line if one is known. -/
  | define (s : Symbol) (sourceLine : Option String)
  | look (view : View)

/-- What a table says. -/
inductive Answer where
  | bound
  | truth (holds : Bool)
  | binding (s : Option Symbol)
  | address (address : Int)
  | bindings (symbols : List Symbol)
  | addresses (pairs : List (String × Int))
  | names (names : List String)
  | size (size : Nat)
  | refused (failure : Failure)
  deriving DecidableEq

/-- What a look at a table shows. -/
def view (t : SymbolTable) : View → Answer
  | .contains name => .truth (t.contains name)
  | .binding name => .binding (t.find? name)
  | .address name =>
    match t.lookup name with
    | .ok address => .address address
    | .error cause => .refused (.ofCause cause)
  | .bindings kind => .bindings (t.ofKind kind)
  | .addresses => .addresses t.addresses
  | .names => .names t.names
  | .size => .size t.size

/-- The table behind a request, and the answer to it, where `memory` characters fit in memory. -/
def perform (memory : Int) (t : SymbolTable) : Request → SymbolTable × Answer
  | .define s sourceLine =>
    match t.bind memory s sourceLine with
    | (bound, .ok ()) => (bound, .bound)
    | (bound, .error i) => (bound, .refused (.ofInterruption i))
  | .look v => (t, t.view v)

/-- The table behind a list of requests. -/
def after (memory : Int) (t : SymbolTable) (requests : List Request) : SymbolTable :=
  requests.foldl (fun t request => (t.perform memory request).1) t

end HackToolchain.SymbolTable
