/-!
# Allocation of variables

Variables get addresses from a base upwards, in the order in which they ask. Reserved addresses are
stepped over.
-/

namespace HackToolchain

/-- The first address at or above `start` that is not reserved. One of the first addresses, as many
as are reserved and one more, is always free. -/
def firstFree (reserved : List Int) (start : Int) : Int :=
  let isFree (offset : Nat) : Bool := !reserved.contains (start + offset)
  start + (((List.range (reserved.length + 1)).find? isFree).getD 0 : Nat)

/-- The state of an allocation of addresses. -/
structure Allocator where
  cursor : Int
  reserved : List Int
  allocated : List Int
  deriving DecidableEq

namespace Allocator

/-- An allocator that starts at a base and steps over the reserved addresses. -/
def ofBase (base : Int) (reserved : List Int) : Allocator :=
  ⟨base, reserved, []⟩

/-- The address of the next allocation. -/
def next (a : Allocator) : Int :=
  firstFree a.reserved a.cursor

/-- Hands out the next address. -/
def allocate (a : Allocator) : Int × Allocator :=
  (a.next, { a with cursor := a.next + 1, allocated := a.allocated ++ [a.next] })

theorem allocated_allocate (a : Allocator) :
    a.allocate.2.allocated = a.allocated ++ [a.next] := rfl

/-- What an allocator is asked. -/
inductive Request where
  | allocate
  /-- The next address is looked at, and not handed out. -/
  | peek
  | list
  deriving DecidableEq

/-- What an allocator says. -/
inductive Answer where
  /-- An address that is handed out. -/
  | allocated (address : Int)
  /-- An address that will be handed out next. -/
  | upcoming (address : Int)
  | listed (addresses : List Int)
  deriving DecidableEq

/-- The allocator behind a request, and the answer to it. -/
def perform (a : Allocator) : Request → Allocator × Answer
  | .allocate => (a.allocate.2, .allocated a.allocate.1)
  | .peek => (a, .upcoming a.next)
  | .list => (a, .listed a.allocated)

/-- The allocator behind a list of requests, and the answers to them. -/
def run (a : Allocator) : List Request → Allocator × List Answer
  | [] => (a, [])
  | request :: rest =>
    let (behind, answer) := a.perform request
    let (last, answers) := behind.run rest
    (last, answer :: answers)

end Allocator

end HackToolchain
