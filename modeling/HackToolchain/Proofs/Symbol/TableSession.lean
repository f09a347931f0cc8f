import HackToolchain.Proofs.Symbol.Conflict
import HackToolchain.Proofs.Text.Digits
import HackToolchain.Symbol.Requests
import Mathlib.Data.List.Nodup

/-!
# Sessions with a symbol table

A table answers requests one after another. Only a new name at an address that is not negative
changes it, and only by an entry at its end. So a name keeps its first binding for ever, those of the
seed included, and every look at the table shows the same entries, each name once.

A refused request leaves the table as it was, with one exception. A new binding is announced when it
is made, and if its address has more digits than can be written, the request fails although the
binding stays. A conflict is reported as one exactly if its message can be written. That is the one
place where the size of the memory matters, so the laws hold for every size.
-/

namespace HackToolchain

open Text

namespace SymbolTable

variable {memory : Int} {t : SymbolTable} {s e : Symbol} {name : String} {sourceLine : Option String}
variable {requests : List Request}

/-! ### One request -/

/-- A name is not bound. -/
def IsNew (t : SymbolTable) (name : String) : Prop :=
  ∀ e ∈ t.entries, e.name ≠ name

theorem find?_eq_none_iff : t.find? name = none ↔ t.IsNew name := by
  simp [find?, IsNew]

/-- In a table that has each name once, an entry is the binding of its name. -/
theorem find?_eq_some_iff_mem (hnames : t.names.Nodup) :
    t.find? name = some e ↔ e ∈ t.entries ∧ e.name = name := by
  refine ⟨fun h => ⟨mem_entries_of_find? h, name_of_find? h⟩, ?_⟩
  rintro ⟨hmem, rfl⟩
  cases h : t.find? e.name with
  | none => exact absurd rfl (find?_eq_none_iff.1 h e hmem)
  | some other =>
    rw [List.inj_on_of_nodup_map hnames (mem_entries_of_find? h) hmem (name_of_find? h)]

/-- A new name at an address that is not negative is put at the end. -/
theorem perform_define_of_isNew (hnew : t.IsNew s.name) (haddress : 0 ≤ s.address) :
    t.perform memory (.define s sourceLine) =
      (⟨t.entries ++ [s]⟩, if Numeral.isWritable s.address then .bound
        else .refused (.unwritable .longNumber)) := by
  have hfind := find?_eq_none_iff.2 hnew
  rw [perform, bind_of_find?_eq_none hfind, if_neg (Int.not_lt.2 haddress)]
  by_cases h : Numeral.isWritable s.address = true <;>
    simp [numberObstacle?, h, Failure.ofInterruption]

/-- A new name is not bound to a negative address. -/
theorem perform_define_of_neg (hnew : t.IsNew s.name) (haddress : s.address < 0) :
    t.perform memory (.define s sourceLine) =
      (t, .refused (if Numeral.isWritable s.address then .negativeAddress s.address
        else .unwritable .longNumber)) := by
  rw [perform, bind_of_find?_eq_none (find?_eq_none_iff.2 hnew), if_pos haddress]
  by_cases h : Numeral.isWritable s.address = true <;>
    simp [Interruption.ofNegative, numberObstacle?, h, Failure.ofInterruption]

/-- A bound name can be bound to its own address again. -/
theorem perform_define_of_find? (he : t.find? s.name = some e) (haddress : s.address = e.address) :
    t.perform memory (.define s sourceLine) = (t, .bound) := by
  rw [perform, bind_of_find?_eq_some he, if_pos haddress.symm]

/-- A bound name is not bound to another address. -/
theorem perform_define_of_ne (he : t.find? s.name = some e) (haddress : s.address ≠ e.address) :
    t.perform memory (.define s sourceLine) =
      (t, .refused (.ofDiagnostic memory (s.conflict e sourceLine))) := by
  rw [perform, bind_of_find?_eq_some he, if_neg (Ne.symm haddress), Failure.ofDiagnostic]

/-- What a request makes of a table: only a new name at an address that is not negative changes it. -/
theorem table_perform (memory : Int) (t : SymbolTable) (request : Request) :
    ((t.perform memory request).1 = t ∧
      ∀ s sourceLine, request = .define s sourceLine → t.IsNew s.name → s.address < 0) ∨
    ∃ s sourceLine, request = .define s sourceLine ∧ t.IsNew s.name ∧ 0 ≤ s.address ∧
      (t.perform memory request).1 = ⟨t.entries ++ [s]⟩ := by
  cases request with
  | look v => exact .inl ⟨rfl, by simp⟩
  | define s sourceLine =>
    -- A binding at hand is compared first, so the sign of the address matters for a new name only.
    cases he : t.find? s.name with
    | some e =>
      refine .inl ⟨?_, ?_⟩
      · by_cases haddress : s.address = e.address
        · rw [perform_define_of_find? he haddress]
        · rw [perform_define_of_ne he haddress]
      · rintro _ _ ⟨⟩ hnew
        exact absurd (name_of_find? he) (hnew e (mem_entries_of_find? he))
    | none =>
      have hnew := find?_eq_none_iff.1 he
      by_cases haddress : s.address < 0
      · refine .inl ⟨by rw [perform_define_of_neg hnew haddress], ?_⟩
        rintro _ _ ⟨⟩ _
        exact haddress
      · have hnonneg := Int.not_lt.1 haddress
        exact .inr ⟨s, sourceLine, rfl, hnew, hnonneg, by rw [perform_define_of_isNew hnew hnonneg]⟩

/-! ### A session -/

/-- The symbols that a session asks to bind, one after another. -/
def definitions (requests : List Request) : List Symbol :=
  requests.filterMap fun
    | .define s _ => some s
    | .look _ => none

/-- What a session binds a new name to: the first symbol of the name whose address is not negative. -/
def firstBinding? (name : String) (requests : List Request) : Option Symbol :=
  (definitions requests).find? fun s => s.name = name ∧ 0 ≤ s.address

theorem definitions_cons {request : Request} :
    definitions (request :: requests) = definitions [request] ++ definitions requests := by
  rw [definitions, definitions, definitions, ← List.filterMap_append, List.singleton_append]

theorem firstBinding?_cons {request : Request} : firstBinding? name (request :: requests) =
    (firstBinding? name [request]).or (firstBinding? name requests) := by
  rw [firstBinding?, definitions_cons, List.find?_append, firstBinding?, firstBinding?]

theorem find?_perform (memory : Int) (t : SymbolTable) (request : Request)
    (name : String) : (t.perform memory request).1.find? name =
      (t.find? name).or (firstBinding? name [request]) := by
  rcases table_perform memory t request with
    ⟨htable, hkept⟩ | ⟨s, sourceLine, rfl, hnew, haddress, htable⟩
  · rw [htable]
    cases hfind : t.find? name with
    | some e => rfl
    | none =>
      cases request with
      | look v => rfl
      | define s sourceLine =>
        -- The name was new and the table is the same, so its address was negative.
        have hneg : s.name = name → s.address < 0 := by
          rintro rfl
          exact hkept s sourceLine rfl (find?_eq_none_iff.1 hfind)
        simpa [firstBinding?, definitions] using hneg
  · rw [htable, find?, List.find?_append]
    congr 1
    simp [firstBinding?, definitions, haddress]

theorem after_cons (memory : Int) (t : SymbolTable) (request : Request) (requests : List Request) :
    t.after memory (request :: requests) = (t.perform memory request).1.after memory requests := rfl

/-- A name keeps its binding. A new one gets the first that a session has for it. -/
theorem find?_after (memory : Int) (t : SymbolTable) (requests : List Request) (name : String) :
    (t.after memory requests).find? name = (t.find? name).or (firstBinding? name requests) := by
  -- One request adds its own binding to what is found, and the alternatives line up.
  induction requests generalizing t with
  | nil => simp [after, firstBinding?, definitions]
  | cons request requests ih =>
    rw [after_cons, ih, find?_perform, Option.or_assoc, ← firstBinding?_cons]

/-- The entries that a session adds stand behind those at hand, in the order of its requests. -/
theorem exists_entries_after (memory : Int) (t : SymbolTable) (requests : List Request) :
    ∃ new, (t.after memory requests).entries = t.entries ++ new ∧
      new.Sublist (definitions requests) := by
  induction requests generalizing t with
  | nil => exact ⟨[], by simp [after], List.nil_sublist _⟩
  | cons request requests ih =>
    obtain ⟨new, hnew, hsublist⟩ := ih (t.perform memory request).1
    rw [after_cons, definitions_cons, hnew]
    rcases table_perform memory t request with ⟨htable, -⟩ | ⟨s, sourceLine, rfl, -, -, htable⟩
    · exact ⟨new, by rw [htable], hsublist.trans (List.sublist_append_right _ _)⟩
    · exact ⟨s :: new, by simp [htable], hsublist.cons_cons s⟩

/-- No request binds a name twice. -/
theorem nodup_names_perform (memory : Int) (hnames : t.names.Nodup) (request : Request) :
    (t.perform memory request).1.names.Nodup := by
  rcases table_perform memory t request with ⟨htable, -⟩ | ⟨s, -, -, hnew, -, htable⟩
  · rwa [htable]
  · rw [htable, names, List.map_append, List.nodup_append]
    refine ⟨hnames, List.nodup_singleton _, fun name hname other hother => ?_⟩
    obtain ⟨e, he, rfl⟩ := List.mem_map.1 hname
    rw [List.mem_singleton.1 hother]
    exact hnew e he

theorem nodup_names_after (memory : Int) (hnames : t.names.Nodup) (requests : List Request) :
    (t.after memory requests).names.Nodup := by
  induction requests generalizing t with
  | nil => exact hnames
  | cons request requests ih => exact ih (nodup_names_perform memory hnames request)

/-! ### The laws -/

/-- What a binding does to a table. -/
structure BindingLaws (memory : Int) (t : SymbolTable) : Prop where
  /-- A new name is put at the end. The request fails if the address cannot be announced. -/
  append : ∀ s sourceLine, t.IsNew s.name → 0 ≤ s.address →
    t.perform memory (.define s sourceLine) =
      (⟨t.entries ++ [s]⟩, if Numeral.isWritable s.address then .bound
        else .refused (.unwritable .longNumber))
  /-- A name can be bound to its own address again, which changes nothing. -/
  rebind : ∀ e ∈ t.entries, ∀ s sourceLine, s.name = e.name → s.address = e.address →
    t.perform memory (.define s sourceLine) = (t, .bound)
  /-- Another address is refused, be it negative. -/
  conflict : ∀ e ∈ t.entries, ∀ s sourceLine, s.name = e.name → s.address ≠ e.address →
    (t.perform memory (.define s sourceLine)).1 = t ∧
    ((t.perform memory (.define s sourceLine)).2 = .refused (.diagnosed
        ⟨.duplicateSymbol s.name s.address e.address e.location, s.location, sourceLine⟩) ↔
      s.IsDescribable memory e sourceLine) ∧
    (¬ s.IsDescribable memory e sourceLine → ∃ obstacle,
      (t.perform memory (.define s sourceLine)).2 = .refused (.unwritable obstacle))
  /-- A new name is not bound to a negative address. -/
  negative : ∀ s sourceLine, t.IsNew s.name → s.address < 0 →
    t.perform memory (.define s sourceLine) =
      (t, .refused (if Numeral.isWritable s.address then .negativeAddress s.address
        else .unwritable .longNumber))
  /-- What is refused changes nothing, unless it is a binding that cannot be announced. -/
  refused : ∀ request failure, (t.perform memory request).2 = .refused failure →
    (t.perform memory request).1 = t ∨ ∃ s sourceLine, request = .define s sourceLine ∧
      t.IsNew s.name ∧ 0 ≤ s.address ∧ Numeral.isWritable s.address = false ∧
      failure = .unwritable .longNumber

/-- What the looks at a table show. -/
structure ViewLaws (memory : Int) (t : SymbolTable) : Prop where
  unchanged : ∀ v, t.perform memory (.look v) = (t, t.view v)
  /-- By its name an entry is found. -/
  entry : ∀ e ∈ t.entries, t.view (.contains e.name) = .truth true ∧
    t.view (.binding e.name) = .binding (some e) ∧ t.view (.address e.name) = .address e.address
  /-- By another name nothing is found. -/
  other : ∀ name, t.IsNew name → t.view (.contains name) = .truth false ∧
    t.view (.binding name) = .binding none ∧
    t.view (.address name) = .refused (.diagnosed (.ofCause (.unknownSymbol name)))
  /-- The lists have the entries in binding order. -/
  listed : t.view (.bindings none) = .bindings t.entries ∧
    t.view .addresses = .addresses (t.entries.map fun e => (e.name, e.address)) ∧
    t.view .names = .names (t.entries.map (·.name)) ∧ t.view .size = .size t.entries.length
  /-- The list of one kind has the entries of this kind. -/
  ofKind : ∀ kind, t.view (.bindings (some kind)) = .bindings (t.entries.filter (·.kind = kind))

theorem bindingLaws (hnames : t.names.Nodup) : t.BindingLaws memory where
  append _ _ := perform_define_of_isNew
  rebind e he s _ hname := perform_define_of_find? ((find?_eq_some_iff_mem hnames).2 ⟨he, hname.symm⟩)
  conflict e he s sourceLine hname haddress := by
    have hfind := (find?_eq_some_iff_mem hnames).2 ⟨he, hname.symm⟩
    rw [perform_define_of_ne hfind haddress, ← Symbol.obstacle?_conflict_eq_none_iff,
      Failure.ofDiagnostic, Interruption.ofDiagnostic]
    cases (s.conflict e sourceLine).obstacle? memory <;>
      simp [Failure.ofInterruption, Symbol.conflict]
  negative _ _ := perform_define_of_neg
  refused request failure hrefused := by
    rcases table_perform memory t request with ⟨htable, -⟩ | ⟨s, sourceLine, rfl, hnew, haddress, -⟩
    · exact .inl htable
    · refine .inr ⟨s, sourceLine, rfl, hnew, haddress, ?_⟩
      rw [perform_define_of_isNew hnew haddress] at hrefused
      cases h : Numeral.isWritable s.address
      · simpa [h, eq_comm] using hrefused
      · simp [h] at hrefused

theorem viewLaws (hnames : t.names.Nodup) : t.ViewLaws memory where
  unchanged _ := rfl
  entry e he := by
    have hfind := (find?_eq_some_iff_mem hnames).2 ⟨he, rfl⟩
    simp [view, contains, lookup, hfind]
  other name hnew := by
    have hfind := find?_eq_none_iff.2 hnew
    have hunknown : Failure.ofCause (.unknownSymbol name) =
        .diagnosed (.ofCause (.unknownSymbol name)) := rfl
    simp [view, contains, lookup, hfind, hunknown]
  listed := by simp [view, ofKind, addresses, names, size]
  ofKind kind := by
    simp only [view, ofKind, Option.all_some]
    congr 2
    funext e
    rw [Bool.beq_eq_decide_eq]
    exact decide_eq_decide.2 eq_comm

/-- In every state of a session that starts with distinct names, bindings and looks obey their laws,
and each name is bound once. The entries of the start stand at the front, those that were added stand
behind them in the order of the requests, and whatever is asked later adds at the end only. A name
has the binding of the start or else the first that was asked for, and keeps it. -/
theorem session_laws (memory : Int) {seed : List (String × Int)} (hseed : (seed.map Prod.fst).Nodup)
    (requests : List Request) :
    let t := (ofSeed seed).after memory requests
    t.BindingLaws memory ∧ t.ViewLaws memory ∧ t.names.Nodup ∧
    (∃ new, t.entries = (ofSeed seed).entries ++ new ∧ new.Sublist (definitions requests)) ∧
    (∀ name, t.find? name = ((ofSeed seed).find? name).or (firstBinding? name requests)) ∧
    ∀ more, (∃ new, (t.after memory more).entries = t.entries ++ new) ∧
      ∀ name address, t.lookup name = .ok address →
        (t.after memory more).lookup name = .ok address := by
  intro t
  have hstart : (ofSeed seed).names.Nodup := by simpa [ofSeed, names, Function.comp_def] using hseed
  have hnames : t.names.Nodup := nodup_names_after memory hstart requests
  refine ⟨bindingLaws hnames, viewLaws hnames, hnames, exists_entries_after memory _ requests,
    find?_after memory _ requests, fun more => ⟨?_, fun name address h => ?_⟩⟩
  · obtain ⟨new, hnew, -⟩ := exists_entries_after memory t more
    exact ⟨new, hnew⟩
  · rw [lookup] at h ⊢
    rw [find?_after]
    cases hfind : t.find? name with
    | none => simp [hfind] at h
    | some e => simpa [hfind] using h

/-- Two names of one address. -/
def sharedSeed : List (String × Int) :=
  [("SP", 0), ("R0", 0)]

def loopPlace : Location := ⟨"a.asm", 2, 1⟩

/-- A label, a second address for it, its own address again and a new name that is refused. -/
def clashingRequests : List Request :=
  [.define ⟨"LOOP", 4, .label, some loopPlace⟩ (some "(LOOP)"), .look (.address "LOOP"),
   .define ⟨"LOOP", -1, .var, none⟩ none, .define ⟨"LOOP", 4, .var, none⟩ none,
   .define ⟨"x", -5, .var, none⟩ none, .define ⟨"SP", 1, .label, none⟩ none]

theorem session_laws_clashingRequests :
    let t := (ofSeed sharedSeed).after ampleMemory clashingRequests
    (sharedSeed.map Prod.fst).Nodup ∧
    t.entries = (ofSeed sharedSeed).entries ++ [⟨"LOOP", 4, .label, some loopPlace⟩] ∧
    t.perform ampleMemory (.define ⟨"LOOP", -1, .var, none⟩ none) =
      (t, .refused (.diagnosed ⟨.duplicateSymbol "LOOP" (-1) 4 (some loopPlace), none, none⟩)) ∧
    t.view (.address "LOOP") = .address 4 := by
  intro t
  have hseed : (sharedSeed.map Prod.fst).Nodup := by decide
  obtain ⟨hbinding, hview, -⟩ := session_laws ampleMemory hseed clashingRequests
  have hentries : t.entries =
      (ofSeed sharedSeed).entries ++ [⟨"LOOP", 4, .label, some loopPlace⟩] := by decide
  have hmem : ⟨"LOOP", 4, .label, some loopPlace⟩ ∈ t.entries := by simp [hentries]
  have hdescribable : Symbol.IsDescribable ampleMemory ⟨"LOOP", -1, .var, none⟩
      ⟨"LOOP", 4, .label, some loopPlace⟩ none :=
    Symbol.obstacle?_conflict_eq_none_iff.1 (by decide)
  obtain ⟨htable, hanswer, -⟩ :=
    hbinding.conflict _ hmem ⟨"LOOP", -1, .var, none⟩ none rfl (by decide)
  exact ⟨hseed, hentries, Prod.ext htable (hanswer.2 hdescribable), (hview.entry _ hmem).2.2⟩

/-- A place with a column that no line can have. -/
def farPlace : Location := ⟨"f", 1, 10 ^ 30⟩

/-- A second address is refused, but not as a conflict, and a binding stays although it fails. -/
theorem bindings_beyond_messages :
    (ofSeed [("a", 0)]).perform ampleMemory (.define ⟨"a", 1, .label, some farPlace⟩ (some "x")) =
      (ofSeed [("a", 0)], .refused (.unwritable .beyondIndex)) ∧
    (ofSeed []).perform ampleMemory (.define ⟨"a", 10 ^ Numeral.digitLimit, .label, none⟩ none) =
      (⟨[⟨"a", 10 ^ Numeral.digitLimit, .label, none⟩]⟩, .refused (.unwritable .longNumber)) := by
  refine ⟨by decide, ?_⟩
  have hnew : (ofSeed []).IsNew "a" := by simp [IsNew, ofSeed]
  have haddress : 0 ≤ (10 : Int) ^ Numeral.digitLimit := Int.pow_nonneg (by decide)
  have hlong : ¬ Numeral.isWritable ((10 : Int) ^ Numeral.digitLimit) = true :=
    Numeral.isWritable_pow_iff.not.2 (Nat.lt_irrefl _)
  rw [perform_define_of_isNew hnew haddress, if_neg hlong]
  rfl

end SymbolTable

end HackToolchain
