import HackToolchain.Symbol.Binding

/-!
# Conflicts that can be described

A binding that is refused is reported as a conflict if the message can be written. The message names
the place of the first binding, or its address if it has no place, and the place of the second one,
and it draws a caret under the source line. A name that is bound at a place that can be written, or
that has a short address, can always be pointed out as the first one.
-/

namespace HackToolchain

open Text

/-- Both numbers of a place can be written. -/
def Location.IsWritable (l : Location) : Prop :=
  Numeral.isWritable l.line = true ∧ Numeral.isWritable l.column = true

theorem Location.obstacle?_eq_none_iff {l : Location} : l.obstacle? = none ↔ l.IsWritable := by
  simp [obstacle?, numbers, IsWritable, numberObstacle?_eq_none_iff]

theorem Diagnostic.caretObstacle?_eq_none_iff {memory : Int} {location : Option Location}
    {sourceLine : Option String} : caretObstacle? memory location sourceLine = none ↔
      ∀ l line, location = some l → sourceLine = some line →
        l.column ≤ line.toList.length + 1 ∨
          (indent + l.column - 1 ≤ indexMax ∧ indent + l.column - 1 ≤ memory) := by
  unfold caretObstacle?
  split
  · rename_i place line
    by_cases h : place.column ≤ line.toList.length + 1
    · simp [h]
    · simp [h, spacesObstacle?_eq_none_iff]
  · rename_i h
    exact iff_of_true rfl fun l line hl hline => absurd hline (h l line hl)

/-- The only obstacle among some numbers is one that is too long. -/
theorem Text.findSome?_numberObstacle? (numbers : List Int) : numbers.findSome? numberObstacle? =
    if ∀ n ∈ numbers, Numeral.isWritable n = true then none else some .longNumber := by
  induction numbers with
  | nil => simp
  | cons n numbers ih =>
    rw [List.findSome?_cons, numberObstacle?]
    cases hn : Numeral.isWritable n with
    | true => simp [ih, hn]
    | false => simp [hn]

/-- A diagnostic whose caret can be drawn is reported if all of its numbers can be written. -/
theorem Interruption.ofDiagnostic_of_caret {memory : Int} {d : Diagnostic}
    (h : Diagnostic.caretObstacle? memory d.location d.sourceLine = none) :
    ofDiagnostic memory d =
      if ∀ n ∈ d.numbers, Numeral.isWritable n = true then .diagnosed d
      else .unwritable .longNumber := by
  rw [ofDiagnostic, Diagnostic.obstacle?, h, Option.or_none, findSome?_numberObstacle?]
  by_cases hall : ∀ n ∈ d.numbers, Numeral.isWritable n = true
  · rw [if_pos hall, if_pos hall]
  · rw [if_neg hall, if_neg hall]

namespace Symbol

variable {memory : Int} {s existing : Symbol} {sourceLine : Option String} {place : Location}

/-- What a message tells of the first binding can be written: its place, or its address if it has no
place. -/
structure IsTraceable (existing : Symbol) : Prop where
  place : ∀ l, existing.location = some l → l.IsWritable
  address : existing.location = none → Numeral.isWritable existing.address = true

/-- The message of a conflict can be written where `memory` characters fit in memory. It names the
first binding and the place of the second one, and it points into the source line. -/
structure IsDescribable (memory : Int) (s existing : Symbol) (sourceLine : Option String) : Prop where
  first : existing.IsTraceable
  place : ∀ l, s.location = some l → l.IsWritable
  caret : ∀ l line, s.location = some l → sourceLine = some line →
    l.column ≤ line.toList.length + 1 ∨
      (Diagnostic.indent + l.column - 1 ≤ indexMax ∧ Diagnostic.indent + l.column - 1 ≤ memory)

/-- Nothing keeps a conflict from being described exactly if all parts of its message can be
written. -/
theorem obstacle?_conflict_eq_none_iff : (s.conflict existing sourceLine).obstacle? memory = none ↔
    s.IsDescribable memory existing sourceLine := by
  have hfirst : (s.conflict existing sourceLine).cause.numbers.findSome? numberObstacle? = none ↔
      existing.IsTraceable := by
    cases h : existing.location with
    | none =>
      simp only [conflict, h, Cause.numbers, List.findSome?_singleton, numberObstacle?_eq_none_iff]
      exact ⟨fun haddress => ⟨by simp [h], fun _ => haddress⟩, fun hfirst => hfirst.address h⟩
    | some l =>
      simp only [conflict, h, Cause.numbers]
      rw [← Location.obstacle?, Location.obstacle?_eq_none_iff]
      exact ⟨fun hplace => ⟨by simpa [h] using hplace, by simp [h]⟩, fun hfirst => hfirst.place l h⟩
  have hplace : ((s.location.map Location.numbers).getD []).findSome? numberObstacle? = none ↔
      ∀ l, s.location = some l → l.IsWritable := by
    cases s.location with
    | none => simp
    | some l => simp [← Location.obstacle?_eq_none_iff, Location.obstacle?]
  rw [Diagnostic.obstacle?, Diagnostic.numbers, List.findSome?_append, Option.or_eq_none_iff,
    Option.or_eq_none_iff, hfirst, Diagnostic.caretObstacle?_eq_none_iff]
  constructor
  · rintro ⟨⟨htraceable, hwritable⟩, hcaret⟩
    exact ⟨htraceable, hplace.1 hwritable, hcaret⟩
  · intro h
    exact ⟨⟨h.first, hplace.2 h.place⟩, h.caret⟩

/-- A symbol is pointed out by a place that can be written. -/
theorem IsTraceable.of_location (h : s.location = some place) (hplace : place.IsWritable) :
    s.IsTraceable where
  place l hl := by
    rw [h] at hl
    obtain rfl := Option.some.inj hl
    exact hplace
  address hnone := by simp [h] at hnone

/-- A conflict is described if its caret stands within the source line. -/
theorem IsTraceable.isDescribable {line : String} (h : existing.IsTraceable)
    (hlocation : s.location = some place) (hplace : place.IsWritable)
    (hcolumn : place.column ≤ line.toList.length + 1) :
    s.IsDescribable memory existing (some line) where
  first := h
  place l hl := by
    rw [hlocation] at hl
    obtain rfl := Option.some.inj hl
    exact hplace
  caret l other hl hother := by
    rw [hlocation] at hl
    obtain rfl := Option.some.inj hl
    obtain rfl := Option.some.inj hother
    exact .inl hcolumn

end Symbol

namespace SymbolTable

variable {memory : Int} {t : SymbolTable} {s : Symbol} {sourceLine : Option String} {name : String}

/-- Every binding of a table can be pointed out. -/
def IsTraceable (t : SymbolTable) : Prop :=
  ∀ s ∈ t.entries, s.IsTraceable

/-- The predefined symbols have no places, and their addresses are short. -/
theorem isTraceable_initial : initial.IsTraceable := by
  have hall : (initial.entries.all fun s =>
      s.location.isNone && Numeral.isWritable s.address) = true := by decide +kernel
  intro s hs
  have hs := List.all_eq_true.1 hall s hs
  rw [Bool.and_eq_true, Option.isNone_iff_eq_none] at hs
  exact ⟨by simp [hs.1], fun _ => hs.2⟩

theorem IsTraceable.of_find? (h : t.IsTraceable) (hfind : t.find? name = some s) : s.IsTraceable :=
  h s (mem_entries_of_find? hfind)

/-- A binding at a place that can be written keeps a table traceable. -/
theorem IsTraceable.bind (h : t.IsTraceable) (hs : s.IsTraceable) :
    (t.bind memory s sourceLine).1.IsTraceable := by
  cases hfind : t.find? s.name with
  | some existing => rwa [bind_of_find?_eq_some hfind]
  | none =>
    rw [bind_of_find?_eq_none hfind]
    split
    · exact h
    · intro other hother
      rcases List.mem_append.1 hother with hold | hnew
      · exact h other hold
      · rwa [List.mem_singleton.1 hnew]

end SymbolTable

end HackToolchain
