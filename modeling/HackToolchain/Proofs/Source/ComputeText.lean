import HackToolchain.Source.Line
import Mathlib.Data.List.TakeWhile

/-!
# The grammar of compute instructions

A text is accepted as a compute instruction if and only if it is the written form of fields that are
not empty and hold no separator. The accepted text determines the fields, their columns included, and
the fields determine the text.
-/

namespace HackToolchain

namespace Source

variable {cs rest part : List Char} {fields : Fields} {dest : Option String} {comp : String}
variable {start compStart : Nat}

/-- A text that can stand between separators. -/
def IsPart (cs : List Char) : Prop :=
  cs ≠ [] ∧ ∀ c ∈ cs, isSeparator c = false

instance : Decidable (IsPart cs) :=
  @instDecidableAnd _ _ inferInstance (List.decidableBAll _ cs)

theorem segment_of_forall (h : ∀ c ∈ cs, isSeparator c = false) : segment cs = cs := by
  apply List.takeWhile_eq_self_iff.2
  intro c hc
  simp [h c hc]

theorem afterSegment_of_forall (h : ∀ c ∈ cs, isSeparator c = false) : afterSegment cs = [] := by
  apply List.dropWhile_eq_nil_iff.2
  intro c hc
  simp [h c hc]

theorem segment_append {c : Char} (h : ∀ c ∈ part, isSeparator c = false)
    (hc : isSeparator c = true) : segment (part ++ c :: rest) = part := by
  rw [segment, List.takeWhile_append_of_pos fun d hd => by simp [h d hd]]
  simp [hc]

theorem afterSegment_append {c : Char} (h : ∀ c ∈ part, isSeparator c = false)
    (hc : isSeparator c = true) : afterSegment (part ++ c :: rest) = c :: rest := by
  rw [afterSegment, List.dropWhile_append_of_pos fun d hd => by simp [h d hd]]
  simp [hc]

/-- The first separator of a text is determined by the text. -/
theorem eq_of_append_separator_eq {part' rest' : List Char} {c c' : Char}
    (h : ∀ c ∈ part, isSeparator c = false) (h' : ∀ c ∈ part', isSeparator c = false)
    (hc : isSeparator c = true) (hc' : isSeparator c' = true)
    (heq : part ++ c :: rest = part' ++ c' :: rest') : part = part' ∧ c = c' ∧ rest = rest' := by
  have hsegment := congrArg segment heq
  rw [segment_append h hc, segment_append h' hc'] at hsegment
  rw [hsegment] at heq
  exact ⟨hsegment, List.cons.inj (List.append_cancel_left heq)⟩

/-- The last separator of a text is determined by the text. -/
theorem eq_of_separator_append_eq {part' rest' : List Char} {c c' : Char}
    (h : ∀ c ∈ part, isSeparator c = false) (h' : ∀ c ∈ part', isSeparator c = false)
    (hc : isSeparator c = true) (hc' : isSeparator c' = true)
    (heq : rest ++ c :: part = rest' ++ c' :: part') : rest = rest' ∧ c = c' ∧ part = part' := by
  -- Read backwards, the last separator is the first one.
  have hreverse : part.reverse ++ c :: rest.reverse = part'.reverse ++ c' :: rest'.reverse := by
    simpa using congrArg List.reverse heq
  obtain ⟨hpart, hsame, hrest⟩ := eq_of_append_separator_eq
    (fun d hd => h d (List.mem_reverse.1 hd)) (fun d hd => h' d (List.mem_reverse.1 hd)) hc hc'
    hreverse
  exact ⟨List.reverse_inj.1 hrest, hsame, List.reverse_inj.1 hpart⟩

/-- A text is one segment, or it goes on behind its first segment with one of the separators. -/
theorem afterSegment_cases (cs : List Char) :
    (afterSegment cs = [] ∧ segment cs = cs ∧ ∀ c ∈ cs, isSeparator c = false) ∨
      (∃ rest, afterSegment cs = '=' :: rest ∧ cs = segment cs ++ '=' :: rest) ∨
        ∃ rest, afterSegment cs = ';' :: rest ∧ cs = segment cs ++ ';' :: rest := by
  have hjoin := segment_append_afterSegment cs
  cases hafter : afterSegment cs with
  | nil =>
    have hsegment : segment cs = cs := by rwa [hafter, List.append_nil] at hjoin
    exact .inl ⟨rfl, hsegment, fun c hc => isSeparator_of_mem_segment (hsegment.symm ▸ hc)⟩
  | cons c rest =>
    have hc := isSeparator_of_afterSegment hafter
    simp only [isSeparator, Bool.or_eq_true, beq_iff_eq] at hc
    rcases hc with rfl | rfl
    · exact .inr (.inl ⟨rest, rfl, by rw [← hafter, hjoin]⟩)
    · exact .inr (.inr ⟨rest, rfl, by rw [← hafter, hjoin]⟩)

theorem not_isPart_of_afterSegment {c : Char} (h : afterSegment cs = c :: rest) : ¬ IsPart cs :=
  fun hpart => by simp [afterSegment_of_forall hpart.2] at h

/-- What `jumpFrom` does in each of the cases of `afterSegment_cases`. -/
theorem jumpFrom_of_forall (h : ∀ c ∈ cs, isSeparator c = false) :
    jumpFrom dest comp compStart start cs =
      if cs.isEmpty then .error ⟨.emptyJump, start⟩
      else .ok ⟨dest, comp, some (String.ofList cs), compStart + 1, start + 1⟩ := by
  rw [jumpFrom, segment_of_forall h, afterSegment_of_forall h]

theorem jumpFrom_equals (h : afterSegment cs = '=' :: rest) :
    jumpFrom dest comp compStart start cs =
      .error ⟨if dest.isSome then .repeatedEquals else .equalsAfterSemicolon,
        start + (segment cs).length⟩ := by
  rw [jumpFrom, h]
  rfl

theorem jumpFrom_semicolon (h : afterSegment cs = ';' :: rest) :
    jumpFrom dest comp compStart start cs =
      .error ⟨.repeatedSemicolon, start + (segment cs).length⟩ := by
  rw [jumpFrom, h]
  rfl

/-- A jump is read if and only if one part ends the text. -/
theorem jumpFrom_eq_ok_iff : jumpFrom dest comp compStart start cs = .ok fields ↔
    IsPart cs ∧ ⟨dest, comp, some (String.ofList cs), compStart + 1, start + 1⟩ = fields := by
  rcases afterSegment_cases cs with ⟨-, -, hparts⟩ | ⟨rest, hafter, -⟩ | ⟨rest, hafter, -⟩
  · rw [jumpFrom_of_forall hparts]
    cases cs with
    | nil => simp [IsPart]
    | cons c cs => simpa [IsPart] using fun _ => hparts
  · simp [jumpFrom_equals hafter, not_isPart_of_afterSegment hafter]
  · simp [jumpFrom_semicolon hafter, not_isPart_of_afterSegment hafter]

/-- What `compFrom` does in each of the cases of `afterSegment_cases`. -/
theorem compFrom_of_forall (h : ∀ c ∈ cs, isSeparator c = false) :
    compFrom dest start cs =
      if cs.isEmpty then .error ⟨.emptyComputation, start⟩
      else .ok ⟨dest, String.ofList cs, none, start + 1, 0⟩ := by
  rw [compFrom, segment_of_forall h, afterSegment_of_forall h]

theorem compFrom_equals (h : afterSegment cs = '=' :: rest) :
    compFrom dest start cs = .error ⟨.repeatedEquals, start + (segment cs).length⟩ := by
  rw [compFrom, h]
  rfl

theorem compFrom_semicolon (h : afterSegment cs = ';' :: rest) :
    compFrom dest start cs =
      if (segment cs).isEmpty then .error ⟨.emptyComputation, start⟩
      else jumpFrom dest (String.ofList (segment cs)) start (start + (segment cs).length + 1)
        rest := by
  rw [compFrom, h]
  rfl

/-- A computation is read if and only if it ends the text, or a semicolon and a jump do. -/
theorem compFrom_eq_ok_iff : compFrom dest start cs = .ok fields ↔
    (IsPart cs ∧ ⟨dest, String.ofList cs, none, start + 1, 0⟩ = fields) ∨
      ∃ comp jump, (IsPart comp ∧ IsPart jump) ∧ comp ++ ';' :: jump = cs ∧
        ⟨dest, String.ofList comp, some (String.ofList jump), start + 1,
          (start + comp.length + 1 : Nat) + 1⟩ = fields := by
  rcases afterSegment_cases cs with ⟨-, -, hparts⟩ | ⟨rest, hafter, -⟩ | ⟨rest, hafter, hjoin⟩
  · -- Without a separator there is no jump.
    have hno (comp jump : List Char) : comp ++ ';' :: jump ≠ cs := by
      rintro rfl
      have hc := hparts ';' (by simp)
      simp [isSeparator] at hc
    rw [compFrom_of_forall hparts]
    cases cs with
    | nil => simp [IsPart]
    | cons c cs => simpa [IsPart, hno] using fun _ => hparts
  · -- An equals sign is no separator of a computation.
    simp only [compFrom_equals hafter, not_isPart_of_afterSegment hafter, false_and, false_or,
      reduceCtorEq, false_iff]
    rintro ⟨comp, jump, ⟨hcomp, -⟩, rfl, -⟩
    rw [afterSegment_append hcomp.2 rfl] at hafter
    simp at hafter
  · simp only [compFrom_semicolon hafter, not_isPart_of_afterSegment hafter, false_and, false_or]
    constructor
    · intro h
      split at h
      · simp at h
      · next hempty =>
        obtain ⟨hjump, hfields⟩ := jumpFrom_eq_ok_iff.1 h
        exact ⟨segment cs, rest, ⟨⟨by simpa using hempty, fun c => isSeparator_of_mem_segment⟩,
          hjump⟩, hjoin.symm, hfields⟩
    · rintro ⟨comp, jump, ⟨hcomp, hjump⟩, rfl, hfields⟩
      rw [afterSegment_append hcomp.2 rfl] at hafter
      obtain rfl : jump = rest := by simpa using hafter
      rw [segment_append hcomp.2 rfl, if_neg (by simpa using hcomp.1)]
      exact jumpFrom_eq_ok_iff.2 ⟨hjump, hfields⟩

/-- What `fieldsOfChars` does in each of the cases of `afterSegment_cases`. -/
theorem fieldsOfChars_equals (h : afterSegment cs = '=' :: rest) :
    fieldsOfChars cs =
      if (segment cs).isEmpty then .error ⟨.emptyDestination, 0⟩
      else compFrom (some (String.ofList (segment cs))) ((segment cs).length + 1) rest := by
  rw [fieldsOfChars, h]
  rfl

theorem fieldsOfChars_of_ne (h : ∀ rest, afterSegment cs ≠ '=' :: rest) :
    fieldsOfChars cs = compFrom none 0 cs := by
  rw [fieldsOfChars]
  split
  · next rest hafter => exact absurd hafter (h rest)
  · rfl

/-- Fields are read with a destination before the first equals sign, or without one. -/
theorem fieldsOfChars_eq_ok_iff_compFrom : fieldsOfChars cs = .ok fields ↔
    (∃ dest rest, IsPart dest ∧ dest ++ '=' :: rest = cs ∧
      compFrom (some (String.ofList dest)) (dest.length + 1) rest = .ok fields) ∨
      compFrom none 0 cs = .ok fields := by
  by_cases hequals : ∃ rest, afterSegment cs = '=' :: rest
  · obtain ⟨rest, hafter⟩ := hequals
    have hjoin : segment cs ++ '=' :: rest = cs := by
      rw [← hafter, segment_append_afterSegment]
    -- Without a destination the equals sign is a fault.
    simp only [fieldsOfChars_equals hafter, compFrom_equals hafter, reduceCtorEq, or_false]
    constructor
    · intro h
      split at h
      · simp at h
      · next hempty =>
        exact ⟨segment cs, rest, ⟨by simpa using hempty, fun c => isSeparator_of_mem_segment⟩,
          hjoin, h⟩
    · rintro ⟨dest, rest', hdest, rfl, h⟩
      rw [afterSegment_append hdest.2 rfl] at hafter
      obtain rfl : rest' = rest := by simpa using hafter
      rwa [segment_append hdest.2 rfl, if_neg (by simpa using hdest.1)]
  · rw [fieldsOfChars_of_ne fun rest hafter => hequals ⟨rest, hafter⟩, iff_or_self]
    rintro ⟨dest, rest, hdest, rfl, -⟩
    exact absurd ⟨rest, afterSegment_append hdest.2 rfl⟩ hequals

end Source

namespace Fields

variable {fields : Fields}

/-- Fields that can be told apart when they are written. -/
structure WellFormed (fields : Fields) : Prop where
  comp : Source.IsPart fields.comp.toList
  dest : ∀ dest ∈ fields.dest, Source.IsPart dest.toList
  jump : ∀ jump ∈ fields.jump, Source.IsPart jump.toList

instance : Decidable fields.WellFormed :=
  decidable_of_iff (Source.IsPart fields.comp.toList ∧
      (∀ dest ∈ fields.dest, Source.IsPart dest.toList) ∧
      ∀ jump ∈ fields.jump, Source.IsPart jump.toList)
    ⟨fun h => ⟨h.1, h.2.1, h.2.2⟩, fun h => ⟨h.comp, h.dest, h.jump⟩⟩

/-- The number of characters before the computation in the written form. -/
def compStart (fields : Fields) : Nat :=
  match fields.dest with
  | some dest => dest.toList.length + 1
  | none => 0

/-- The fields with the columns of their written form. -/
def placed (fields : Fields) : Fields :=
  { fields with
    compColumn := fields.compStart + 1
    jumpColumn :=
      if fields.jump.isSome then
        (fields.compStart + fields.comp.toList.length + 1 : Nat) + 1
      else 0 }

theorem toList_text : fields.text.toList =
    (match fields.dest with
      | some dest => dest.toList ++ ['=']
      | none => []) ++ fields.comp.toList ++
    match fields.jump with
      | some jump => ';' :: jump.toList
      | none => [] := by
  obtain ⟨dest, comp, jump, _, _⟩ := fields
  cases dest <;> cases jump <;> simp [text]

theorem WellFormed.text_ne_nil (h : fields.WellFormed) : fields.text.toList ≠ [] := by
  rw [toList_text]
  simp [h.comp.1]

end Fields

namespace Source

variable {cs : List Char} {fields : Fields}

/-- A computation and a jump are read from their written form, and from nothing else. -/
theorem compFrom_eq_ok_iff_text {dest : Option String} {start : Nat} :
    compFrom dest start cs = .ok fields ↔
      (IsPart fields.comp.toList ∧ ∀ jump ∈ fields.jump, IsPart jump.toList) ∧
        (fields.comp.toList ++
            match fields.jump with
            | some jump => ';' :: jump.toList
            | none => []) = cs ∧
          ⟨dest, fields.comp, fields.jump, start + 1,
            if fields.jump.isSome then (start + fields.comp.toList.length + 1 : Nat) + 1 else 0⟩ =
            fields := by
  rw [compFrom_eq_ok_iff]
  constructor
  · rintro (⟨hcomp, rfl⟩ | ⟨comp, jump, ⟨hcomp, hjump⟩, rfl, rfl⟩)
    · simp [hcomp]
    · simp [hcomp, hjump]
  · obtain ⟨dest', comp, jump, compColumn, jumpColumn⟩ := fields
    rintro ⟨⟨hcomp, hjump⟩, rfl, hfields⟩
    cases jump with
    | none => exact .inl ⟨by simpa using hcomp, by simpa using hfields⟩
    | some jump =>
      exact .inr ⟨comp.toList, jump.toList, ⟨hcomp, hjump jump rfl⟩, rfl, by simpa using hfields⟩

/-- Reading fields is the inverse of writing them. -/
theorem fieldsOfChars_eq_ok_iff : fieldsOfChars cs = .ok fields ↔
    fields.WellFormed ∧ fields.text.toList = cs ∧ fields.placed = fields := by
  simp only [fieldsOfChars_eq_ok_iff_compFrom, compFrom_eq_ok_iff_text]
  obtain ⟨dest, comp, jump, compColumn, jumpColumn⟩ := fields
  constructor
  · rintro (⟨dest', rest, hdest, rfl, ⟨hcomp, hjump⟩, rfl, hfields⟩ |
      ⟨⟨hcomp, hjump⟩, rfl, hfields⟩)
    -- The text was cut behind a destination, or it was not.
    · obtain ⟨rfl, rfl, rfl⟩ : some (String.ofList dest') = dest ∧ _ := by simpa using hfields
      refine ⟨⟨hcomp, by simpa using hdest, hjump⟩, ?_, ?_⟩
      · simp [Fields.toList_text]
      · simp [Fields.placed, Fields.compStart]
    · obtain ⟨rfl, rfl, rfl⟩ : none = dest ∧ _ := by simpa using hfields
      refine ⟨⟨hcomp, by simp, hjump⟩, ?_, ?_⟩
      · simp [Fields.toList_text]
      · simp [Fields.placed, Fields.compStart]
  · rintro ⟨hform, rfl, hplaced⟩
    rw [Fields.toList_text]
    cases dest with
    | none =>
      refine .inr ⟨⟨hform.comp, hform.jump⟩, rfl, ?_⟩
      simpa [Fields.placed, Fields.compStart] using hplaced
    | some dest =>
      refine .inl ⟨dest.toList, _, hform.dest dest rfl, ?_, ⟨hform.comp, hform.jump⟩, rfl, ?_⟩
      · simp
      · simpa [Fields.placed, Fields.compStart] using hplaced

end Source

end HackToolchain
