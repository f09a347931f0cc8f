import HackToolchain.Symbol.Table

/-!
# Binding symbols

Every binding is made in the same way, be it that of a label, of a variable or of a symbol that is
bound on its own. A binding that is refused is reported, if the report can be written. One that is
accepted is announced with its address as soon as it has been made, so a new binding whose address
cannot be written stays in the table although its caller is told of a failure.
-/

namespace HackToolchain

/-- Why work on a program ends early. -/
inductive Interruption where
  /-- The source text is at fault. -/
  | diagnosed (d : Diagnostic)
  /-- A literal is not read. -/
  | numeral (fault : Text.Numeral.Fault)
  /-- A symbol would be bound to a negative address. -/
  | negativeAddress (address : Int)
  /-- A diagnostic or an announcement cannot be written. -/
  | unwritable (obstacle : Text.Obstacle)
  deriving DecidableEq

namespace Interruption

/-- The interruption by a diagnostic, if its message can be written where `memory` characters fit in
memory. -/
def ofDiagnostic (memory : Int) (d : Diagnostic) : Interruption :=
  match d.obstacle? memory with
  | some obstacle => unwritable obstacle
  | none => diagnosed d

/-- The interruption by a cause without a place. No caret is drawn, so any memory will do. -/
def ofCause (cause : Cause) : Interruption :=
  ofDiagnostic Text.ampleMemory (.ofCause cause)

/-- The interruption by a negative address, if it can be written. -/
def ofNegative (address : Int) : Interruption :=
  match Text.numberObstacle? address with
  | some obstacle => unwritable obstacle
  | none => negativeAddress address

/-- The interruption by a binding that is refused. -/
def ofRefusal (memory : Int) (s : Symbol) (sourceLine : Option String) :
    SymbolTable.Refusal → Interruption
  | .conflict existing => ofDiagnostic memory (s.conflict existing sourceLine)
  | .negative => ofNegative s.address

end Interruption

namespace SymbolTable

/-- What keeps the binding of a symbol from being announced; only a new binding is. -/
def announcementObstacle? (t : SymbolTable) (s : Symbol) : Option Text.Obstacle :=
  if t.contains s.name then none else Text.numberObstacle? s.address

/-- Binds a symbol for the sake of a source line, if one is known. -/
def bind (memory : Int) (t : SymbolTable) (s : Symbol) (sourceLine : Option String) :
    SymbolTable × Except Interruption Unit :=
  match t.define s with
  | .error refusal => (t, .error (.ofRefusal memory s sourceLine refusal))
  | .ok bound =>
    match t.announcementObstacle? s with
    | some obstacle => (bound, .error (.unwritable obstacle))
    | none => (bound, .ok ())

variable {memory : Int} {t t' : SymbolTable} {s existing : Symbol} {sourceLine : Option String}
variable {obstacle : Text.Obstacle}

theorem announcementObstacle?_eq_some_iff : t.announcementObstacle? s = some obstacle ↔
    t.find? s.name = none ∧ Text.numberObstacle? s.address = some obstacle := by
  rw [announcementObstacle?, contains]
  cases t.find? s.name <;> simp

theorem announcementObstacle?_eq_none_iff : t.announcementObstacle? s = none ↔
    (t.find? s.name = none → Text.numberObstacle? s.address = none) := by
  rw [announcementObstacle?, contains]
  cases t.find? s.name <;> simp

/-- A name that is bound keeps its address, and is refused another one. -/
theorem bind_of_find?_eq_some (h : t.find? s.name = some existing) :
    t.bind memory s sourceLine =
      (t, if existing.address = s.address then .ok ()
        else .error (.ofDiagnostic memory (s.conflict existing sourceLine))) := by
  by_cases haddress : existing.address = s.address
  · simp [bind, define, h, haddress, announcementObstacle?, contains]
  · simp [bind, define, h, haddress, Interruption.ofRefusal]

/-- A new name is put at the end, unless its address is negative, and then its address is written. -/
theorem bind_of_find?_eq_none (h : t.find? s.name = none) : t.bind memory s sourceLine =
    if s.address < 0 then (t, .error (.ofNegative s.address))
    else (⟨t.entries ++ [s]⟩,
      match Text.numberObstacle? s.address with
      | some obstacle => .error (.unwritable obstacle)
      | none => .ok ()) := by
  by_cases hneg : s.address < 0
  · simp [bind, define, h, hneg, Interruption.ofRefusal]
  · simp only [bind, define, h, if_neg hneg, announcementObstacle?, contains, Option.isSome_none,
      Bool.false_eq_true, if_false]
    cases Text.numberObstacle? s.address <;> rfl

theorem define_of_bind (h : t.bind memory s sourceLine = (t', .ok ())) : t.define s = .ok t' := by
  rw [bind] at h
  cases hdefine : t.define s with
  | error refusal => simp [hdefine] at h
  | ok bound =>
    simp only [hdefine] at h
    cases hannounced : t.announcementObstacle? s with
    | some obstacle => simp [hannounced] at h
    | none =>
      simp only [hannounced] at h
      rw [(Prod.mk.inj h).1]

end SymbolTable

end HackToolchain
