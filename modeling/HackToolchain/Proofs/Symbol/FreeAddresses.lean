import HackToolchain.Symbol.Allocator
import Mathlib.Data.List.Nodup
import Mathlib.Data.List.Perm.Subperm
import Mathlib.Data.Nat.Init

/-!
# Free addresses in closed form

An allocator looks for the next free address from its cursor on. What it hands out can be said
without a cursor: the free addresses at or above the base, in ascending order, one after the other.

A window of consecutive addresses holds at most as many reserved ones as there are, so a window that
is wider by that number holds enough free ones.
-/

namespace HackToolchain

variable {reserved : List Int} {start base a : Int} {i k m n : Nat}

/-! ### Windows of addresses -/

/-- The `n` consecutive addresses from `start` on. -/
def addressWindow (start : Int) (n : Nat) : List Int :=
  (List.range n).map fun offset : Nat => start + (offset : Int)

/-- The addresses among `n` consecutive ones from `start` on that are not reserved. -/
def freeAddresses (reserved : List Int) (start : Int) (n : Nat) : List Int :=
  (addressWindow start n).filter fun address => !reserved.contains address

theorem mem_addressWindow : a ∈ addressWindow start n ↔ start ≤ a ∧ a < start + n := by
  simp only [addressWindow, List.mem_map, List.mem_range]
  constructor
  · rintro ⟨offset, hoffset, rfl⟩
    omega
  · intro ⟨hlow, hhigh⟩
    exact ⟨(a - start).toNat, by omega, by omega⟩

theorem nodup_addressWindow : (addressWindow start n).Nodup := by
  refine List.Nodup.map (fun x y h => ?_) List.nodup_range
  have hsum : start + (x : Int) = start + (y : Int) := h
  omega

theorem mem_freeAddresses :
    a ∈ freeAddresses reserved start n ↔ (start ≤ a ∧ a < start + n) ∧ a ∉ reserved := by
  simp [freeAddresses, mem_addressWindow]

theorem freeAddresses_succ : freeAddresses reserved start (n + 1) =
    freeAddresses reserved start n ++
      if start + (n : Int) ∈ reserved then [] else [start + (n : Int)] := by
  by_cases h : start + (n : Int) ∈ reserved <;>
    simp [freeAddresses, addressWindow, List.range_succ, h]

/-- A wider window begins with the free addresses of a narrower one. -/
theorem freeAddresses_prefix (reserved : List Int) (start : Int) (h : m ≤ n) :
    freeAddresses reserved start m <+: freeAddresses reserved start n := by
  induction n, h using Nat.le_induction with
  | base => exact List.prefix_rfl
  | succ n _ ih =>
    rw [freeAddresses_succ]
    exact ih.trans (List.prefix_append _ _)

/-- Addresses that are reserved add nothing to a window. -/
theorem freeAddresses_eq_of_forall_mem (h : m ≤ n)
    (hreserved : ∀ offset : Nat, m ≤ offset → offset < n → start + (offset : Int) ∈ reserved) :
    freeAddresses reserved start n = freeAddresses reserved start m := by
  induction n, h using Nat.le_induction with
  | base => rfl
  | succ n hmn ih =>
    rw [freeAddresses_succ, if_pos (hreserved n hmn (by omega)), List.append_nil]
    exact ih fun offset hlow hhigh => hreserved offset hlow (by omega)

/-- All but as many addresses of a window as are reserved are free. -/
theorem le_length_freeAddresses (reserved : List Int) (start : Int) (n : Nat) :
    n ≤ (freeAddresses reserved start n).length + reserved.length := by
  have hsplit := List.length_eq_length_filter_add (l := addressWindow start n)
    fun address => !reserved.contains address
  have htaken : ((addressWindow start n).filter
      fun address => !!reserved.contains address).length ≤ reserved.length := by
    -- The taken addresses of a window differ from each other, so they fit among the reserved ones.
    refine (List.subperm_of_subset (nodup_addressWindow.filter _) fun address h => ?_).length_le
    simpa using (List.mem_filter.1 h).2
  have hlength : (addressWindow start n).length = n := by simp [addressWindow]
  simp only [freeAddresses]
  omega

/-! ### The search for a free address -/

/-- The search finds a free address, and all it has passed over are reserved. -/
theorem exists_firstFree_eq (reserved : List Int) (start : Int) : ∃ offset : Nat,
    firstFree reserved start = start + (offset : Int) ∧ start + (offset : Int) ∉ reserved ∧
      ∀ j < offset, start + (j : Int) ∈ reserved := by
  let isFree (offset : Nat) : Bool := !reserved.contains (start + (offset : Int))
  have hsome : ((List.range (reserved.length + 1)).find? isFree).isSome := by
    -- One more address than are reserved leaves one that is free.
    have hlength := le_length_freeAddresses reserved start (reserved.length + 1)
    obtain ⟨a, ha⟩ := List.exists_mem_of_length_pos
      (l := freeAddresses reserved start (reserved.length + 1)) (by omega)
    obtain ⟨⟨hlow, hhigh⟩, hfree⟩ := mem_freeAddresses.1 ha
    refine List.find?_isSome.2 ⟨(a - start).toNat, List.mem_range.2 (by omega), ?_⟩
    have haddress : start + ((a - start).toNat : Int) = a := by omega
    simp only [isFree, haddress]
    simpa using hfree
  obtain ⟨offset, hoffset⟩ := Option.isSome_iff_exists.1 hsome
  obtain ⟨hfree, -, hbefore⟩ := List.find?_range_eq_some.1 hoffset
  refine ⟨offset, ?_, by simpa [isFree] using hfree, fun j hj => ?_⟩
  · change start + (((List.range (reserved.length + 1)).find? isFree).getD 0 : Nat) = _
    rw [hoffset]
    rfl
  · simpa [isFree] using hbefore j hj

theorem le_firstFree : start ≤ firstFree reserved start := by
  obtain ⟨offset, heq, -, -⟩ := exists_firstFree_eq reserved start
  omega

/-- The search ends at an address that is not reserved. -/
theorem firstFree_notMem : firstFree reserved start ∉ reserved := by
  obtain ⟨offset, heq, hfree, -⟩ := exists_firstFree_eq reserved start
  rwa [heq]

/-- The search passes over reserved addresses only. -/
theorem mem_reserved_of_lt_firstFree (hlow : start ≤ a) (hhigh : a < firstFree reserved start) :
    a ∈ reserved := by
  obtain ⟨offset, heq, -, hreserved⟩ := exists_firstFree_eq reserved start
  have h := hreserved (a - start).toNat (by omega)
  rwa [show start + ((a - start).toNat : Int) = a by omega] at h

/-! ### The free addresses from a base upwards -/

/-- The `i`-th free address at or above a base, counted from zero. The window is wide enough to
hold it. -/
def nthFree (reserved : List Int) (base : Int) (i : Nat) : Int :=
  ((freeAddresses reserved base (i + 1 + reserved.length))[i]?).getD base

/-- A free address is numbered by the free addresses between the base and it. -/
theorem nthFree_length_freeAddresses (h : base + (k : Int) ∉ reserved) :
    nthFree reserved base (freeAddresses reserved base k).length = base + (k : Int) := by
  have hwide : k + 1 ≤ (freeAddresses reserved base k).length + 1 + reserved.length := by
    have := le_length_freeAddresses reserved base k
    omega
  -- The window up to this address ends with it, and the wider one begins with that window.
  obtain ⟨behind, hbehind⟩ := freeAddresses_prefix reserved base hwide
  rw [freeAddresses_succ, if_neg h] at hbehind
  rw [nthFree, ← hbehind]
  simp

/-- There are as many free addresses as one asks for. -/
theorem exists_length_freeAddresses_eq (reserved : List Int) (base : Int) (i : Nat) :
    ∃ k : Nat, base + (k : Int) ∉ reserved ∧ (freeAddresses reserved base k).length = i := by
  induction i with
  | zero =>
    obtain ⟨k, -, hfree, hreserved⟩ := exists_firstFree_eq reserved base
    refine ⟨k, hfree, ?_⟩
    rw [freeAddresses_eq_of_forall_mem (Nat.zero_le k) fun offset _ h => hreserved offset h]
    rfl
  | succ i ih =>
    obtain ⟨k, hk, hlength⟩ := ih
    -- The next free address stands where the search from behind the last one ends.
    obtain ⟨offset, -, hfree, hreserved⟩ := exists_firstFree_eq reserved (base + k + 1)
    have hshift (j : Nat) : base + ((k + 1 + j : Nat) : Int) = base + k + 1 + j := by omega
    refine ⟨k + 1 + offset, by rwa [hshift], ?_⟩
    have hskip : freeAddresses reserved base (k + 1 + offset) =
        freeAddresses reserved base (k + 1) := by
      apply freeAddresses_eq_of_forall_mem (by omega)
      intro j hlow hhigh
      have h := hreserved (j - (k + 1)) (by omega)
      rwa [← hshift, show k + 1 + (j - (k + 1)) = j by omega] at h
    rw [hskip, freeAddresses_succ, if_neg hk, List.length_append, hlength]
    rfl

/-- The `i`-th free address is the one that is free, not below the base, and has `i` free ones
between the base and itself. -/
theorem nthFree_eq_iff : nthFree reserved base i = a ↔
    base ≤ a ∧ a ∉ reserved ∧ (freeAddresses reserved base (a - base).toNat).length = i := by
  constructor
  · rintro rfl
    obtain ⟨k, hfree, hlength⟩ := exists_length_freeAddresses_eq reserved base i
    have heq : nthFree reserved base i = base + (k : Int) := by
      rw [← hlength, nthFree_length_freeAddresses hfree]
    rw [heq]
    exact ⟨by omega, hfree, by rwa [show (base + (k : Int) - base).toNat = k by omega]⟩
  · rintro ⟨hlow, hfree, rfl⟩
    have haddress : base + ((a - base).toNat : Int) = a := by omega
    rw [nthFree_length_freeAddresses (by rwa [haddress]), haddress]

theorem base_le_nthFree (reserved : List Int) (base : Int) (i : Nat) : base ≤ nthFree reserved base i :=
  (nthFree_eq_iff.1 rfl).1

theorem nthFree_notMem (reserved : List Int) (base : Int) (i : Nat) :
    nthFree reserved base i ∉ reserved :=
  (nthFree_eq_iff.1 rfl).2.1

theorem nthFree_injective {j : Nat} (h : nthFree reserved base i = nthFree reserved base j) :
    i = j := by
  obtain ⟨-, -, hi⟩ := nthFree_eq_iff.1 h
  obtain ⟨-, -, hj⟩ := nthFree_eq_iff.1 (rfl : nthFree reserved base j = nthFree reserved base j)
  exact hi.symm.trans hj

/-- The free addresses are numbered in ascending order. -/
theorem nthFree_lt_nthFree {j : Nat} (h : i < j) :
    nthFree reserved base i < nthFree reserved base j := by
  obtain ⟨-, -, hi⟩ := nthFree_eq_iff.1 (rfl : nthFree reserved base i = nthFree reserved base i)
  obtain ⟨-, -, hj⟩ := nthFree_eq_iff.1 (rfl : nthFree reserved base j = nthFree reserved base j)
  by_contra hle
  -- The window below the higher one would be part of the window below the lower one.
  have hwindow : (nthFree reserved base j - base).toNat ≤ (nthFree reserved base i - base).toNat := by
    omega
  have hlength := List.IsPrefix.length_le <| freeAddresses_prefix reserved base hwindow
  omega

/-! ### Allocation -/

namespace Allocator

/-- The state of an allocator with the given base after `n` allocations. -/
structure Served (reserved : List Int) (base : Int) (n : Nat) (allocator : Allocator) : Prop where
  reserved_eq : allocator.reserved = reserved
  allocated_eq : allocator.allocated = (List.range n).map (nthFree reserved base)
  base_le_cursor : base ≤ allocator.cursor
  length_below_cursor : (freeAddresses reserved base (allocator.cursor - base).toNat).length = n

variable {allocator : Allocator}

theorem served_ofBase (reserved : List Int) (base : Int) :
    Served reserved base 0 (.ofBase base reserved) where
  reserved_eq := rfl
  allocated_eq := rfl
  base_le_cursor := Int.le_refl base
  length_below_cursor := by simp [ofBase, freeAddresses, addressWindow]

/-- No free address stands between the cursor and the next allocation. -/
theorem Served.freeAddresses_next (h : Served reserved base n allocator) :
    freeAddresses reserved base (allocator.next - base).toNat =
      freeAddresses reserved base (allocator.cursor - base).toNat := by
  have hle : allocator.cursor ≤ allocator.next := le_firstFree
  have hbase := h.base_le_cursor
  apply freeAddresses_eq_of_forall_mem (by omega)
  intro offset hlow hhigh
  rw [← h.reserved_eq]
  have hstart : allocator.cursor ≤ base + offset := by omega
  have hnext : base + offset < allocator.next := by omega
  exact mem_reserved_of_lt_firstFree hstart hnext

/-- The next allocation is the free address with the number of those before it. -/
theorem Served.next_eq (h : Served reserved base n allocator) :
    allocator.next = nthFree reserved base n := by
  have hle : allocator.cursor ≤ allocator.next := le_firstFree
  have hfree : allocator.next ∉ allocator.reserved := firstFree_notMem
  refine (nthFree_eq_iff.2 ⟨Int.le_trans h.base_le_cursor hle, h.reserved_eq ▸ hfree, ?_⟩).symm
  rw [h.freeAddresses_next, h.length_below_cursor]

theorem Served.allocate (h : Served reserved base n allocator) :
    Served reserved base (n + 1) allocator.allocate.2 where
  reserved_eq := h.reserved_eq
  allocated_eq := by
    rw [allocated_allocate, h.allocated_eq, h.next_eq, List.range_succ, List.map_append]
    rfl
  base_le_cursor := by
    have hle : allocator.cursor ≤ allocator.next := le_firstFree
    have hbase := h.base_le_cursor
    change base ≤ allocator.next + 1
    omega
  length_below_cursor := by
    have hle : allocator.cursor ≤ allocator.next := le_firstFree
    have hbase := h.base_le_cursor
    have hfree : allocator.next ∉ reserved := h.reserved_eq ▸ firstFree_notMem
    change (freeAddresses reserved base (allocator.next + 1 - base).toNat).length = n + 1
    rw [show (allocator.next + 1 - base).toNat = (allocator.next - base).toNat + 1 by omega,
      freeAddresses_succ, h.freeAddresses_next, List.length_append, h.length_below_cursor,
      show base + ((allocator.next - base).toNat : Int) = allocator.next by omega,
      if_neg hfree]
    rfl

/-- Addresses are handed out in ascending order. -/
theorem Served.pairwise_allocated (h : Served reserved base n allocator) :
    allocator.allocated.Pairwise (· < ·) := by
  rw [h.allocated_eq, List.pairwise_map]
  exact List.pairwise_lt_range.imp nthFree_lt_nthFree

/-- Only free addresses from the base on are handed out. -/
theorem Served.of_mem_allocated (h : Served reserved base n allocator)
    (ha : a ∈ allocator.allocated) : base ≤ a ∧ a ∉ reserved := by
  rw [h.allocated_eq] at ha
  obtain ⟨i, -, rfl⟩ := List.mem_map.1 ha
  exact ⟨base_le_nthFree reserved base i, nthFree_notMem reserved base i⟩

end Allocator

end HackToolchain
