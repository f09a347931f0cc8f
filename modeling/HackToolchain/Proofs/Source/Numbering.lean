import HackToolchain.Proofs.Program.Faults
import HackToolchain.Proofs.Source.Columns
import HackToolchain.Proofs.Symbol.Conflict
import HackToolchain.Proofs.Text.Digits

/-!
# Sources whose lines can be numbered

A message tells the number of a line, so a line beyond the number of digits that are written could
not be told. No list that fits in memory has so many lines: its last number can be written, and then
the numbers before it can be written as well, and so can the number of its instructions.

In statements with such places every label is announced, and a declaration only fails with the
diagnostic of a conflict.
-/

namespace HackToolchain

open Denotation Text

variable {file : String} {lines raws : List String} {number : Nat} {i : Interruption}
variable {statements before after done rest : List Statement} {s : Statement} {d : Diagnostic}
variable {name : String} {symbol : Symbol}

/-- The number of every line can be written. This leaves out no list whose length an index counts. -/
def Source.IsNumbered (lines : List String) : Prop :=
  Numeral.isWritable lines.length = true

/-- Lines that an index counts are numbered. -/
theorem Source.isNumbered_of_length_le (h : lines.length ≤ indexMax) : Source.IsNumbered lines := by
  have hmax : Numeral.isWritable (9223372036854775807 : Nat) = true := by decide
  exact Numeral.isWritable_of_le (by rw [indexMax] at h; omega) hmax

/-- An allocation is announced if its address and its place can be written. -/
theorem Bindings.allocationObstacle?_eq_none_iff {address : Int} {place : Location} :
    allocationObstacle? address place = none ↔
      Numeral.isWritable address = true ∧ place.IsWritable := by
  rw [allocationObstacle?, Option.or_eq_none_iff, numberObstacle?_eq_none_iff,
    Location.obstacle?_eq_none_iff]

theorem Bindings.allocationObstacle?_eq_some_iff {address : Int} {place : Location}
    {obstacle : Obstacle} : allocationObstacle? address place = some obstacle ↔
      ¬ (Numeral.isWritable address = true ∧ place.IsWritable) ∧ obstacle = .longNumber := by
  have hnumbers : allocationObstacle? address place =
      (address :: place.numbers).findSome? numberObstacle? := by
    rw [allocationObstacle?, List.findSome?_cons, Location.obstacle?]
    cases numberObstacle? address <;> rfl
  have hall : (∀ n ∈ address :: place.numbers, Numeral.isWritable n = true) ↔
      Numeral.isWritable address = true ∧ place.IsWritable := by
    simp [Location.numbers, Location.IsWritable]
  rw [hnumbers, findSome?_numberObstacle?, Option.ite_none_left_eq_some, hall, Option.some.injEq,
    @eq_comm _ obstacle]

namespace Denotation

/-- The places of some statements and the number of their instructions can be written. -/
structure Numbered (statements : List Statement) : Prop where
  place : ∀ s ∈ statements, s.location.IsWritable
  count : Numeral.isWritable (instructionCount statements) = true

theorem instructionCount_append :
    instructionCount (before ++ after) = instructionCount before + instructionCount after :=
  List.countP_append

theorem Numbered.of_append (h : Numbered (before ++ after)) : Numbered before where
  place s hs := h.place s (List.mem_append_left after hs)
  count := Numeral.isWritable_of_le (by rw [instructionCount_append]; omega) h.count

/-- Every label of a program stands where a statement does. -/
theorem isTraceable_labelTable (h : ∀ s ∈ done, s.location.IsWritable) :
    (labelTable done).IsTraceable := by
  intro symbol hsymbol
  rcases List.mem_append.1 hsymbol with hinitial | hlabel
  · exact SymbolTable.isTraceable_initial symbol hinitial
  · obtain ⟨name, hname, rfl⟩ := List.mem_map.1 hlabel
    obtain ⟨s, hs, hdeclares⟩ := mem_labelNames_iff.1 (mem_newLabels_iff.1 hname).1
    constructor
    · intro l hl
      obtain ⟨t, ht, rfl⟩ := Option.map_eq_some_iff.1 hl
      exact h t (List.mem_of_find?_eq_some ht)
    · intro hnone
      rw [labelSymbol, Option.map_eq_none_iff, List.find?_eq_none] at hnone
      simpa [hdeclares] using hnone s hs

/-- All labels are announced. -/
theorem Numbered.announced (h : Numbered statements) : Announced statements := by
  rintro before s after name rfl - -
  exact h.of_append.count

/-- The diagnostic of a conflict can be written, if the declaration begins within its source line. -/
theorem Numbered.ofDiagnostic_of_conflict? (h : Numbered (done ++ s :: rest))
    (hcolumn : s.location.column ≤ s.source.toList.length + 1) (hs : conflict? done s = some d) :
    Interruption.ofDiagnostic ampleMemory d = .diagnosed d := by
  obtain ⟨name, existing, -, hfind, -, rfl⟩ := conflict?_eq_some_iff.1 hs
  have htraceable := isTraceable_labelTable h.of_append.place
  have hplace : s.location.IsWritable := h.place s (by simp)
  rw [Interruption.ofDiagnostic, Symbol.obstacle?_conflict_eq_none_iff.2
    ((htraceable.of_find? hfind).isDescribable rfl hplace hcolumn)]

/-- A declaration fails with the diagnostic of a conflict. -/
theorem Numbered.labelFault?_eq_some_iff (h : Numbered (done ++ s :: rest))
    (hcolumn : s.location.column ≤ s.source.toList.length + 1) :
    labelFault? done s = some i ↔ ∃ d, conflict? done s = some d ∧ i = .diagnosed d := by
  have hannounced : labelObstacle? done s = none :=
    labelObstacle?_eq_none_iff.2 fun _ _ _ => h.of_append.count
  rw [labelFault?, hannounced, Option.map_none, Option.or_none, Option.map_eq_some_iff]
  constructor
  · rintro ⟨d, hd, rfl⟩
    exact ⟨d, hd, h.ofDiagnostic_of_conflict? hcolumn hd⟩
  · rintro ⟨d, hd, rfl⟩
    exact ⟨d, hd, h.ofDiagnostic_of_conflict? hcolumn hd⟩

end Denotation

namespace Statement

/-- A statement that is read from a line begins with it. -/
theorem location_of_ofLinesFrom (h : ofLinesFrom file number raws = .ok statements)
    (hs : s ∈ statements) :
    ∃ n, number ≤ n ∧ n < number + raws.length ∧ s.location = ⟨file, n, 1⟩ := by
  obtain ⟨before, after, rfl⟩ := List.append_of_mem hs
  obtain ⟨front, raw, back, rfl, -, hraw⟩ := exists_line_of_ofLinesFrom h
  refine ⟨number + front.length, by omega, ?_, (ofLine_eq_some_iff.1 hraw).2.1⟩
  rw [List.length_append, List.length_cons]
  omega

theorem column_of_ofLinesFrom (h : ofLinesFrom file number raws = .ok statements) :
    ∀ s ∈ statements, s.location.column = 1 := by
  intro s hs
  obtain ⟨n, -, -, hlocation⟩ := location_of_ofLinesFrom h hs
  rw [hlocation]

/-- A line holds at most one statement. -/
theorem length_of_ofLinesFrom (h : ofLinesFrom file number raws = .ok statements) :
    statements.length ≤ raws.length := by
  induction raws generalizing number statements with
  | nil =>
    obtain rfl := Except.ok.inj h
    exact Nat.le_refl 0
  | cons raw raws ih =>
    obtain ⟨statement, behind, -, hbehind, rfl⟩ := ofLinesFrom_cons_eq_ok_iff.1 h
    have hrest := ih hbehind
    rw [List.length_append, List.length_cons]
    cases statement <;> simp <;> omega

/-- A statement stands no higher than the statements before it reach. -/
theorem le_line_of_ofLinesFrom (h : ofLinesFrom file number raws = .ok (before ++ s :: after)) :
    ∃ n, number + before.length ≤ n ∧ s.location = ⟨file, n, 1⟩ := by
  obtain ⟨front, raw, back, rfl, hbefore, hraw⟩ := exists_line_of_ofLinesFrom h
  have hlength := length_of_ofLinesFrom hbefore
  exact ⟨number + front.length, by omega, (ofLine_eq_some_iff.1 hraw).2.1⟩

/-- The statements of numbered lines have places that can be written. -/
theorem numbered_of_ofLines (hlines : Source.IsNumbered lines)
    (h : ofLines file lines = .ok statements) : Numbered statements where
  place s hs := by
    obtain ⟨n, -, hlast, hlocation⟩ := location_of_ofLinesFrom h hs
    rw [hlocation]
    have hcolumn : Numeral.isWritable 1 = true := by decide
    exact ⟨Numeral.isWritable_of_le (by omega) hlines, hcolumn⟩
  count := by
    have hlength := length_of_ofLinesFrom h
    refine Numeral.isWritable_of_le ?_ hlines
    exact (List.countP_le_length).trans hlength

end Statement

end HackToolchain
