import HackToolchain.Proofs.Symbol.FreeAddresses

/-!
# Sessions with an allocator

An allocator may be asked for addresses, for a look at the next one and for a list of what it has
handed out, in any order. Only the requests for an address count: the `n` addresses behind `n` of
them are the `n` smallest ones at or above the base that are not reserved.

The search for the next address goes from one address to the next and stops at the first that is not
reserved. It stops from every start, because only finitely many addresses are reserved.
-/

namespace HackToolchain

variable {reserved : List Int} {start found base a : Int} {n : Nat}

/-! ### The search -/

/-- A search stops at an address that is not reserved and goes on behind one that is. -/
inductive SearchEnds (reserved : List Int) : Int → Int → Prop
  | stop {start : Int} : start ∉ reserved → SearchEnds reserved start start
  | skip {start found : Int} : start ∈ reserved → SearchEnds reserved (start + 1) found →
    SearchEnds reserved start found

/-- A search through as many reserved addresses as one likes stops behind them. -/
theorem SearchEnds.of_forall_mem {offset : Nat} (hfree : start + (offset : Int) ∉ reserved)
    (hreserved : ∀ j < offset, start + (j : Int) ∈ reserved) :
    SearchEnds reserved start (start + (offset : Int)) := by
  -- The number of reserved addresses ahead is what decreases; the start moves with it.
  induction offset generalizing start with
  | zero =>
    rw [Int.natCast_zero, Int.add_zero] at hfree ⊢
    exact .stop hfree
  | succ offset ih =>
    have hshift (j : Nat) : start + ((j + 1 : Nat) : Int) = start + 1 + j := by omega
    have hstart : start ∈ reserved := by simpa using hreserved 0 (Nat.succ_pos offset)
    rw [hshift] at hfree ⊢
    refine .skip hstart (ih hfree fun j hj => ?_)
    rw [← hshift]
    exact hreserved (j + 1) (Nat.succ_lt_succ hj)

theorem SearchEnds.start_le (h : SearchEnds reserved start found) : start ≤ found := by
  induction h with
  | stop => exact Int.le_refl _
  | skip _ _ ih => omega

theorem SearchEnds.found_notMem (h : SearchEnds reserved start found) : found ∉ reserved := by
  induction h with
  | stop hfree => exact hfree
  | skip _ _ ih => exact ih

/-- A search passes over reserved addresses only. -/
theorem SearchEnds.mem_of_lt_found (h : SearchEnds reserved start found) (hlow : start ≤ a)
    (hhigh : a < found) : a ∈ reserved := by
  induction h with
  | stop => omega
  | @skip start found hstart _ ih =>
    by_cases h : a = start
    · rwa [h]
    · exact ih (by omega) hhigh

/-- The search stops, whatever is reserved, and at one address only. -/
theorem searchEnds_iff : SearchEnds reserved start found ↔ firstFree reserved start = found := by
  constructor
  · intro h
    -- Neither of the two ends can lie below the other, where everything is reserved.
    apply Int.le_antisymm
    · by_contra hlt
      exact h.found_notMem (mem_reserved_of_lt_firstFree h.start_le (Int.not_le.1 hlt))
    · by_contra hlt
      exact firstFree_notMem (h.mem_of_lt_found le_firstFree (Int.not_le.1 hlt))
  · rintro rfl
    obtain ⟨offset, heq, hfree, hreserved⟩ := exists_firstFree_eq reserved start
    rw [heq]
    exact .of_forall_mem hfree hreserved

/-! ### The smallest free addresses -/

/-- The `n` smallest addresses at or above a base that are not reserved, in ascending order. -/
structure AreSmallestFree (reserved : List Int) (base : Int) (n : Nat) (addresses : List Int) :
    Prop where
  length_eq : addresses.length = n
  ascending : addresses.Pairwise (· < ·)
  free : ∀ a ∈ addresses, base ≤ a ∧ a ∉ reserved
  /-- Every other free address is larger. -/
  smallest : ∀ a, base ≤ a → a ∉ reserved → a ∉ addresses → ∀ other ∈ addresses, other < a

/-- Every free address has a number. -/
theorem exists_nthFree_eq (hbase : base ≤ a) (hfree : a ∉ reserved) :
    ∃ i, nthFree reserved base i = a :=
  ⟨_, nthFree_eq_iff.2 ⟨hbase, hfree, rfl⟩⟩

/-! ### Sessions -/

namespace Allocator

variable {allocator : Allocator}

/-- What has been handed out is as many of the smallest free addresses as there were allocations. -/
theorem Served.areSmallestFree (h : Served reserved base n allocator) :
    AreSmallestFree reserved base n allocator.allocated where
  length_eq := by rw [h.allocated_eq, List.length_map, List.length_range]
  ascending := h.pairwise_allocated
  free _ ha := h.of_mem_allocated ha
  smallest a hbase hfree hother other hmem := by
    obtain ⟨i, rfl⟩ := exists_nthFree_eq hbase hfree
    rw [h.allocated_eq] at hother hmem
    obtain ⟨j, hj, rfl⟩ := List.mem_map.1 hmem
    -- A free address that was not handed out has a higher number than those that were.
    have hi : ¬ i < n := fun hi => hother (List.mem_map_of_mem (List.mem_range.2 hi))
    have hjn := List.mem_range.1 hj
    exact nthFree_lt_nthFree (by omega)

/-- Only a request for an address adds to the number of allocations. -/
theorem Served.perform (h : Served reserved base n allocator) (request : Request) :
    Served reserved base (n + [request].count .allocate) (allocator.perform request).1 := by
  cases request with
  | allocate => exact h.allocate
  | peek => exact h
  | list => exact h

theorem run_cons (allocator : Allocator) (request : Request) (requests : List Request) :
    allocator.run (request :: requests) =
      (((allocator.perform request).1.run requests).1,
        (allocator.perform request).2 :: ((allocator.perform request).1.run requests).2) := rfl

theorem Served.run (h : Served reserved base n allocator) (requests : List Request) :
    Served reserved base (n + requests.count .allocate) (allocator.run requests).1 := by
  induction requests generalizing n allocator with
  | nil => exact h
  | cons request requests ih =>
    have hcount : (request :: requests).count Request.allocate =
        [request].count .allocate + requests.count .allocate := by
      rw [← List.count_append, List.singleton_append]
    rw [hcount, ← Nat.add_assoc]
    exact ih (h.perform request)

/-- The addresses that some answers hand out. -/
def handedOut (answers : List Answer) : List Int :=
  answers.filterMap fun
    | .allocated address => some address
    | .upcoming _ | .listed _ => none

/-- The list of an allocator grows by what it hands out. -/
theorem allocated_run (allocator : Allocator) (requests : List Request) :
    (allocator.run requests).1.allocated =
      allocator.allocated ++ handedOut (allocator.run requests).2 := by
  induction requests generalizing allocator with
  | nil => simp [run, handedOut]
  | cons request requests ih =>
    rw [run_cons, ih]
    cases request <;> simp [perform, handedOut, allocate]

theorem run_append (allocator : Allocator) (before requests : List Request) :
    allocator.run (before ++ requests) =
      (((allocator.run before).1.run requests).1,
        (allocator.run before).2 ++ ((allocator.run before).1.run requests).2) := by
  induction before generalizing allocator with
  | nil => rfl
  | cons request before ih => rw [List.cons_append, run_cons, ih, run_cons, List.cons_append]

theorem length_run (allocator : Allocator) (requests : List Request) :
    (allocator.run requests).2.length = requests.length := by
  induction requests generalizing allocator with
  | nil => rfl
  | cons request requests ih => rw [run_cons, List.length_cons, ih, List.length_cons]

theorem served_run (reserved : List Int) (base : Int) (requests : List Request) :
    Served reserved base (requests.count .allocate) ((ofBase base reserved).run requests).1 := by
  simpa using (served_ofBase reserved base).run requests

theorem handedOut_run (reserved : List Int) (base : Int) (requests : List Request) :
    handedOut ((ofBase base reserved).run requests).2 =
      ((ofBase base reserved).run requests).1.allocated :=
  (allocated_run (ofBase base reserved) requests).symm

/-- Whatever is asked in between, the addresses that an allocator hands out are its list, and they
are as many of the smallest free ones as it was asked for, in ascending order. A look shows the
address that comes behind those handed out before it, wherever it stands in the session, and it
changes nothing. This address is where the search from the cursor ends, and it is handed out next. A
search ends from every start. -/
theorem allocations_smallestFree (reserved : List Int) (base : Int) (requests : List Request) :
    let last := ((ofBase base reserved).run requests).1
    let answers := ((ofBase base reserved).run requests).2
    handedOut answers = last.allocated ∧
    AreSmallestFree reserved base (requests.count .allocate) last.allocated ∧
    (∀ before after, requests = before ++ .peek :: after →
      ∃ next, answers[before.length]? = some (.upcoming next) ∧
        AreSmallestFree reserved base (before.count .allocate + 1)
          (handedOut (answers.take before.length) ++ [next])) ∧
    (∃ next, last.perform .peek = (last, .upcoming next) ∧
      (last.perform .allocate).2 = .allocated next ∧ SearchEnds reserved last.cursor next) ∧
    ∀ start, ∃! found, SearchEnds reserved start found := by
  intro last answers
  have hserved : Served reserved base (requests.count .allocate) last :=
    served_run reserved base requests
  refine ⟨handedOut_run reserved base requests, hserved.areSmallestFree, ?_,
    ⟨last.next, rfl, rfl, ?_⟩, fun start => ?_⟩
  · intro before after hsplit
    have hanswers : answers = ((ofBase base reserved).run before).2 ++
        .upcoming ((ofBase base reserved).run before).1.next ::
          (((ofBase base reserved).run before).1.run after).2 := by
      simp only [answers, hsplit, run_append]
      rfl
    have hlength := length_run (ofBase base reserved) before
    refine ⟨((ofBase base reserved).run before).1.next, ?_, ?_⟩
    · rw [hanswers, ← hlength, List.getElem?_append_right (Nat.le_refl _), Nat.sub_self,
        List.getElem?_cons_zero]
    · rw [hanswers, ← hlength, List.take_left, handedOut_run]
      exact (served_run reserved base before).allocate.areSmallestFree
  · exact searchEnds_iff.2 (by rw [next, hserved.reserved_eq])
  · exact ⟨firstFree reserved start, searchEnds_iff.2 rfl, fun found h => (searchEnds_iff.1 h).symm⟩

/-- A look between two requests for an address. -/
def lookingRequests : List Request :=
  [.allocate, .peek, .allocate, .list]

/-- Reserved addresses that stand next to each other are stepped over at once. -/
theorem allocations_smallestFree_adjacent :
    ((ofBase 2 [3, 4, 0, 4]).run lookingRequests).2 =
      [.allocated 2, .upcoming 5, .allocated 5, .listed [2, 5]] ∧
    lookingRequests = [.allocate] ++ .peek :: [.allocate, .list] ∧
    AreSmallestFree [3, 4, 0, 4] 2 2 [2, 5] := by
  have hanswers : ((ofBase 2 [3, 4, 0, 4]).run lookingRequests).2 =
      [.allocated 2, .upcoming 5, .allocated 5, .listed [2, 5]] := by decide
  have hsplit : lookingRequests = [.allocate] ++ .peek :: [.allocate, .list] := rfl
  obtain ⟨-, -, hlook, -⟩ := allocations_smallestFree [3, 4, 0, 4] 2 lookingRequests
  obtain ⟨next, hnext, hsmallest⟩ := hlook _ _ hsplit
  rw [hanswers] at hnext hsmallest
  obtain rfl : 5 = next := by simpa using hnext
  exact ⟨hanswers, hsplit, hsmallest⟩

end Allocator

end HackToolchain
