import HackToolchain.Proofs.Source.Columns
import Mathlib.Computability.MyhillNerode

/-!
# Where a compute instruction goes wrong

The text of a compute line is accepted if and only if it is the written form of some fields, and then
it determines these fields and their columns. A text that is not accepted is reported at the first
character that cannot belong to a compute instruction: what stands before the caret can be continued
to an instruction, and with the character at the caret it cannot.

The three parts of the reader know three languages, of which each is a quotient of the one before by
what has been read. So the longest prefix that can be continued is found part by part.
-/

namespace HackToolchain

open Text

namespace Source

variable {L : Language Char} {cs front part rest : List Char} {c : Char} {n m start compStart : Nat}
variable {fields : Fields} {fault : Fault} {dest : Option String} {comp line : String}

/-! ### Texts that can be continued -/

/-- A text with which a text of the language can begin. -/
def IsViable (L : Language Char) (cs : List Char) : Prop :=
  ∃ rest, cs ++ rest ∈ L

/-- The lengths of the prefixes of a text with which a text of the language can begin. -/
def viableLengths (L : Language Char) (cs : List Char) : Set Nat :=
  {n | n ≤ cs.length ∧ IsViable L (cs.take n)}

theorem IsViable.of_append (h : IsViable L (cs ++ rest)) : IsViable L cs := by
  obtain ⟨more, hmore⟩ := h
  exact ⟨rest ++ more, by rwa [← List.append_assoc]⟩

theorem IsViable.take (h : IsViable L (cs.take m)) (hnm : n ≤ m) : IsViable L (cs.take n) := by
  rw [← List.take_append_drop n (cs.take m), List.take_take, Nat.min_eq_left hnm] at h
  exact h.of_append

theorem isViable_leftQuotient : IsViable (L.leftQuotient front) cs ↔ IsViable L (front ++ cs) := by
  simp only [IsViable, Language.mem_leftQuotient, List.append_assoc]

/-- A text that can be continued, but not with the character that follows, is the longest one. -/
theorem isGreatest_length (hviable : IsViable L part)
    (hnext : ∀ c rest', rest = c :: rest' → ¬ IsViable L (part ++ [c])) :
    IsGreatest (viableLengths L (part ++ rest)) part.length := by
  constructor
  · refine ⟨by simp, ?_⟩
    rwa [List.take_left]
  · rintro m ⟨hm, hlonger⟩
    by_contra hlt
    -- A longer prefix holds the character that follows.
    cases rest with
    | nil =>
      rw [List.append_nil] at hm
      exact hlt hm
    | cons c rest =>
      apply hnext c rest rfl
      have hone := hlonger.take (Nat.succ_le_of_lt (Nat.lt_of_not_le hlt))
      rwa [Nat.succ_eq_add_one, List.take_length_add_append] at hone

/-- What has been read is left out of the language and of the text. -/
theorem isGreatest_append (h : IsGreatest (viableLengths (L.leftQuotient front) cs) n) :
    IsGreatest (viableLengths L (front ++ cs)) (front.length + n) := by
  obtain ⟨⟨hn, hviable⟩, hlongest⟩ := h
  rw [isViable_leftQuotient] at hviable
  constructor
  · refine ⟨?_, ?_⟩
    · rw [List.length_append]
      exact Nat.add_le_add_left hn _
    · rwa [List.take_length_add_append]
  · rintro m ⟨hm, hlonger⟩
    by_cases hfront : m ≤ front.length
    · exact hfront.trans (Nat.le_add_right _ _)
    · -- The prefix goes beyond what has been read.
      obtain ⟨k, rfl⟩ := Nat.exists_eq_add_of_le (Nat.le_of_not_le hfront)
      rw [List.take_length_add_append, ← isViable_leftQuotient] at hlonger
      rw [List.length_append] at hm
      apply Nat.add_le_add_left
      exact hlongest ⟨Nat.le_of_add_le_add_left hm, hlonger⟩

/-! ### The languages of the reader -/

/-- The compute instructions: the written forms of fields, without blanks. -/
def computeTexts : Language Char :=
  {cs | IsSolid cs ∧ ∃ fields : Fields, fields.WellFormed ∧ fields.text.toList = cs}

/-- What may stand behind a dest and an equals sign. -/
def compTexts : Language Char :=
  {cs | IsSolid cs ∧ (IsPart cs ∨
    ∃ comp jump, (IsPart comp ∧ IsPart jump) ∧ comp ++ ';' :: jump = cs)}

/-- What may stand behind a semicolon. -/
def jumpTexts : Language Char :=
  {cs | IsSolid cs ∧ IsPart cs}

theorem mem_compTexts_iff (dest : Option String) (start : Nat) : cs ∈ compTexts ↔
    IsSolid cs ∧ ∃ fields, compFrom dest start cs = .ok fields := by
  apply and_congr_right'
  simp only [compFrom_eq_ok_iff]
  constructor
  · rintro (hcomp | ⟨comp, jump, hparts, hjoin⟩)
    · exact ⟨_, .inl ⟨hcomp, rfl⟩⟩
    · exact ⟨_, .inr ⟨comp, jump, hparts, hjoin, rfl⟩⟩
  · rintro ⟨fields, ⟨hcomp, -⟩ | ⟨comp, jump, hparts, hjoin, -⟩⟩
    · exact .inl hcomp
    · exact .inr ⟨comp, jump, hparts, hjoin⟩

theorem mem_computeTexts_iff : cs ∈ computeTexts ↔
    IsSolid cs ∧ ∃ fields, fieldsOfChars cs = .ok fields := by
  apply and_congr_right'
  simp only [fieldsOfChars_eq_ok_iff]
  constructor
  · rintro ⟨fields, hform, htext⟩
    -- The written form does not show the columns, so these can be put right.
    exact ⟨fields.placed, ⟨hform.comp, hform.dest, hform.jump⟩, htext, rfl⟩
  · rintro ⟨fields, hform, htext, -⟩
    exact ⟨fields, hform, htext⟩

/-- A text without separators can be continued behind each separator, and at the start. -/
theorem isViable_of_forall (hsolid : IsSolid cs) (h : ∀ c ∈ cs, isSeparator c = false) :
    IsViable computeTexts cs ∧ IsViable compTexts cs ∧ IsViable jumpTexts cs := by
  -- One more letter makes a part of it, if it was empty.
  have hsolid' : IsSolid (cs ++ ['0']) := isSolid_append.2 ⟨hsolid, by decide⟩
  have hpart : IsPart (cs ++ ['0']) := by
    refine ⟨by simp, List.forall_mem_append.2 ⟨h, List.forall_mem_singleton.2 rfl⟩⟩
  have hcomp : cs ++ ['0'] ∈ compTexts := ⟨hsolid', .inl hpart⟩
  refine ⟨⟨['0'], ?_⟩, ⟨['0'], hcomp⟩, ⟨['0'], hsolid', hpart⟩⟩
  obtain ⟨-, fields, hfields⟩ := (mem_compTexts_iff none 0).1 hcomp
  exact mem_computeTexts_iff.2 ⟨hsolid', fields, fieldsOfChars_eq_ok_iff_compFrom.2 (.inr hfields)⟩

/-- Behind a comp and a semicolon a jump may stand. -/
theorem leftQuotient_compTexts (hsolid : IsSolid part) (h : IsPart part) :
    compTexts.leftQuotient (part ++ [';']) = jumpTexts := by
  ext cs
  rw [Language.mem_leftQuotient, List.append_assoc, List.singleton_append]
  constructor
  · rintro ⟨hcs, hwhole | ⟨comp, jump, ⟨hcomp, hjump⟩, hjoin⟩⟩
    · exact absurd (hwhole.2 ';' (by simp)) (by decide)
    · obtain ⟨-, -, rfl⟩ := eq_of_append_separator_eq hcomp.2 h.2 rfl rfl hjoin
      exact ⟨(isSolid_cons.1 (isSolid_append.1 hcs).2).2, hjump⟩
  · rintro ⟨hcs, hjump⟩
    exact ⟨isSolid_append.2 ⟨hsolid, isSolid_cons.2 ⟨rfl, hcs⟩⟩, .inr ⟨part, cs, ⟨h, hjump⟩, rfl⟩⟩

/-- Behind a dest and an equals sign a comp may stand. -/
theorem leftQuotient_computeTexts (hsolid : IsSolid part) (h : IsPart part) :
    computeTexts.leftQuotient (part ++ ['=']) = compTexts := by
  ext cs
  rw [Language.mem_leftQuotient, List.append_assoc, List.singleton_append, mem_computeTexts_iff,
    fieldsOfChars_equals (afterSegment_append h.2 rfl), segment_append h.2 rfl,
    if_neg (by simpa using h.1), mem_compTexts_iff (some (String.ofList part)) (part.length + 1)]
  simp [hsolid, isBlank]

/-- What follows a text does not change its first separator. -/
theorem afterSegment_append_right (h : afterSegment cs = c :: rest) (more : List Char) :
    afterSegment (cs ++ more) = c :: (rest ++ more) := by
  have hjoin := segment_append_afterSegment cs
  rw [h] at hjoin
  rw [← hjoin, List.append_assoc, List.cons_append]
  exact afterSegment_append (fun d => isSeparator_of_mem_segment) (isSeparator_of_afterSegment h)

/-- A text whose first separator is no equals sign is continued like a comp. -/
theorem isViable_computeTexts_iff (hsolid : IsSolid cs) (h : ∀ rest, afterSegment cs ≠ '=' :: rest) :
    IsViable computeTexts cs ↔ IsViable compTexts cs := by
  rcases afterSegment_cases cs with ⟨-, -, hparts⟩ | ⟨rest, hafter, -⟩ | ⟨rest, hafter, -⟩
  · obtain ⟨hcompute, hcomp, -⟩ := isViable_of_forall hsolid hparts
    exact iff_of_true hcompute hcomp
  · exact absurd hafter (h rest)
  · -- The semicolon stays the first separator in every continuation.
    apply exists_congr
    intro more
    have hmore := afterSegment_append_right hafter more
    rw [mem_computeTexts_iff, mem_compTexts_iff none 0, fieldsOfChars_of_ne (by simp [hmore])]

theorem viableLengths_computeTexts (hsolid : IsSolid cs)
    (h : ∀ rest, afterSegment cs ≠ '=' :: rest) :
    viableLengths computeTexts cs = viableLengths compTexts cs := by
  ext n
  apply and_congr_right'
  rw [← List.take_append_drop n cs, isSolid_append] at hsolid
  apply isViable_computeTexts_iff hsolid.1
  intro rest hafter
  have hwhole := afterSegment_append_right hafter (cs.drop n)
  rw [List.take_append_drop] at hwhole
  exact h _ hwhole

/-! ### Where a fault shows -/

/-- The longest prefix of a text that goes on behind a separator that may follow. -/
theorem isGreatest_behind (hjoin : cs = part ++ c :: rest)
    (h : IsGreatest (viableLengths (L.leftQuotient (part ++ [c])) rest) n) :
    IsGreatest (viableLengths L cs) (part.length + 1 + n) := by
  have hgreatest := isGreatest_append h
  rwa [List.append_assoc, List.singleton_append, ← hjoin, List.length_append,
    List.length_singleton] at hgreatest

/-- A separator that may not follow ends the longest prefix that can be continued. -/
theorem isGreatest_segment (hviable : IsViable L (segment cs))
    (h : ∀ c rest, afterSegment cs = c :: rest → ∀ more, segment cs ++ c :: more ∉ L) :
    IsGreatest (viableLengths L cs) (segment cs).length := by
  have hgreatest : IsGreatest (viableLengths L (segment cs ++ afterSegment cs))
      (segment cs).length := by
    apply isGreatest_length hviable
    rintro c rest hafter ⟨more, hmore⟩
    apply h c rest hafter more
    rwa [List.append_assoc, List.singleton_append] at hmore
  rwa [segment_append_afterSegment] at hgreatest

theorem isSolid_segment (h : IsSolid cs) : IsSolid (segment cs) := by
  intro c hc
  exact h c ((List.takeWhile_prefix _).subset hc)

/-- A fault of a jump shows behind the longest prefix of a jump. -/
theorem isGreatest_of_jumpFrom (hsolid : IsSolid cs)
    (h : jumpFrom dest comp compStart start cs = .error fault) :
    ∃ n, fault.index = start + n ∧ IsGreatest (viableLengths jumpTexts cs) n := by
  refine ⟨(segment cs).length, ?_, ?_⟩
  · rcases afterSegment_cases cs with ⟨-, hsegment, hparts⟩ | ⟨rest, hafter, -⟩ | ⟨rest, hafter, -⟩
    · rw [jumpFrom_of_forall hparts] at h
      split at h
      · next hempty =>
        rw [hsegment, List.isEmpty_iff.1 hempty]
        exact (congrArg Fault.index (Except.error.inj h)).symm
      · simp at h
    · rw [jumpFrom_equals hafter] at h
      exact (congrArg Fault.index (Except.error.inj h)).symm
    · rw [jumpFrom_semicolon hafter] at h
      exact (congrArg Fault.index (Except.error.inj h)).symm
  · have hsegment := isSolid_segment hsolid
    apply isGreatest_segment (isViable_of_forall hsegment fun c => isSeparator_of_mem_segment).2.2
    rintro c rest hafter more ⟨-, -, hparts⟩
    -- No separator belongs to a jump.
    have hc := hparts c (by simp)
    rw [isSeparator_of_afterSegment hafter] at hc
    exact Bool.noConfusion hc

/-- An equals sign is not part of a comp, and a semicolon does not stand in its place. -/
theorem notMem_compTexts (hpart : ∀ d ∈ part, isSeparator d = false) (hc : isSeparator c = true)
    (h : c = '=' ∨ part = []) (more : List Char) : part ++ c :: more ∉ compTexts := by
  rintro ⟨-, hwhole | ⟨comp, jump, ⟨hcomp, -⟩, hjoin⟩⟩
  · have hc' := hwhole.2 c (by simp)
    rw [hc] at hc'
    exact Bool.noConfusion hc'
  · obtain ⟨rfl, rfl, -⟩ := eq_of_append_separator_eq hcomp.2 hpart rfl hc hjoin
    rcases h with h | h
    · exact absurd h (by decide)
    · exact hcomp.1 h

/-- A fault of a comp shows behind the longest prefix of a comp, or in the jump behind it. -/
theorem isGreatest_of_compFrom (hsolid : IsSolid cs)
    (h : compFrom dest start cs = .error fault) :
    ∃ n, fault.index = start + n ∧ IsGreatest (viableLengths compTexts cs) n := by
  have hsegment := isSolid_segment hsolid
  have hviable := (isViable_of_forall hsegment fun c => isSeparator_of_mem_segment).2.1
  rcases afterSegment_cases cs with ⟨hafter, hwhole, hparts⟩ | ⟨rest, hafter, -⟩ |
    ⟨rest, hafter, hjoin⟩
  · rw [compFrom_of_forall hparts] at h
    split at h
    · next hempty =>
      refine ⟨(segment cs).length, ?_, isGreatest_segment hviable (by simp [hafter])⟩
      rw [hwhole, List.isEmpty_iff.1 hempty]
      exact (congrArg Fault.index (Except.error.inj h)).symm
    · simp at h
  · rw [compFrom_equals hafter] at h
    refine ⟨(segment cs).length, (congrArg Fault.index (Except.error.inj h)).symm, ?_⟩
    apply isGreatest_segment hviable
    intro c rest' hc
    rw [hafter, List.cons.injEq] at hc
    exact notMem_compTexts (fun d => isSeparator_of_mem_segment) (by simp [← hc.1, isSeparator])
      (.inl hc.1.symm)
  · rw [compFrom_semicolon hafter] at h
    split at h
    · next hempty =>
      refine ⟨(segment cs).length, ?_, ?_⟩
      · rw [List.isEmpty_iff.1 hempty]
        exact (congrArg Fault.index (Except.error.inj h)).symm
      · apply isGreatest_segment hviable
        intro c rest' hc
        exact notMem_compTexts (fun d => isSeparator_of_mem_segment)
          (isSeparator_of_afterSegment hc) (.inr (List.isEmpty_iff.1 hempty))
    · next hempty =>
      -- The comp and the semicolon have been read, and the jump is at fault.
      have hpart : IsPart (segment cs) :=
        ⟨by simpa using hempty, fun d => isSeparator_of_mem_segment⟩
      rw [hjoin, isSolid_append, isSolid_cons] at hsolid
      obtain ⟨n, hn, hgreatest⟩ := isGreatest_of_jumpFrom hsolid.2.2 h
      rw [← leftQuotient_compTexts hsegment hpart] at hgreatest
      exact ⟨(segment cs).length + 1 + n, by omega, isGreatest_behind hjoin hgreatest⟩

/-- A fault shows behind the longest prefix that can be continued to a compute instruction. -/
theorem isGreatest_of_fieldsOfChars (hsolid : IsSolid cs) (h : fieldsOfChars cs = .error fault) :
    IsGreatest (viableLengths computeTexts cs) fault.index := by
  by_cases hequals : ∃ rest, afterSegment cs = '=' :: rest
  · obtain ⟨rest, hafter⟩ := hequals
    have hjoin : cs = segment cs ++ '=' :: rest := by
      rw [← hafter, segment_append_afterSegment]
    have hsegment := isSolid_segment hsolid
    rw [fieldsOfChars_equals hafter] at h
    split at h
    · next hempty =>
      -- No dest stands before the equals sign.
      have hnil := List.isEmpty_iff.1 hempty
      have hviable := (isViable_of_forall hsegment fun c => isSeparator_of_mem_segment).1
      have hgreatest : IsGreatest (viableLengths computeTexts cs) (segment cs).length := by
        apply isGreatest_segment hviable
        rintro c rest' hc more hmem
        rw [hafter, List.cons.injEq] at hc
        rw [hnil, ← hc.1, mem_computeTexts_iff] at hmem
        obtain ⟨-, fields, hfields⟩ := hmem
        have hnone : ∀ c ∈ ([] : List Char), isSeparator c = false := by simp
        rw [fieldsOfChars_equals (afterSegment_append hnone rfl), segment_append hnone rfl] at hfields
        simp at hfields
      rw [← Except.error.inj h]
      rwa [hnil] at hgreatest
    · next hempty =>
      have hpart : IsPart (segment cs) :=
        ⟨by simpa using hempty, fun d => isSeparator_of_mem_segment⟩
      rw [hjoin, isSolid_append, isSolid_cons] at hsolid
      obtain ⟨n, hn, hgreatest⟩ := isGreatest_of_compFrom hsolid.2.2 h
      rw [← leftQuotient_computeTexts hsegment hpart] at hgreatest
      rw [hn]
      exact isGreatest_behind hjoin hgreatest
  · have hne : ∀ rest, afterSegment cs ≠ '=' :: rest := fun rest hafter => hequals ⟨rest, hafter⟩
    rw [fieldsOfChars_of_ne hne] at h
    obtain ⟨n, hn, hgreatest⟩ := isGreatest_of_compFrom hsolid h
    rw [hn, Nat.zero_add, viableLengths_computeTexts hsolid hne]
    exact hgreatest

/-! ### Compute lines -/

end Source

namespace Fields

variable {fields : Fields} {jump : String}

/-- The dest with its equals sign, if there is one. -/
def assignment (fields : Fields) : List Char :=
  fields.dest.elim [] fun dest => dest.toList ++ ['=']

theorem length_assignment : fields.assignment.length = fields.compStart := by
  rw [assignment, compStart]
  cases fields.dest <;> simp

theorem assignment_append_prefix : fields.assignment ++ fields.comp.toList <+: fields.text.toList := by
  rw [toList_text, assignment]
  cases fields.dest <;> exact List.prefix_append _ _

theorem text_of_jump (h : fields.jump = some jump) : fields.text.toList =
    fields.assignment ++ fields.comp.toList ++ [';'] ++ jump.toList := by
  rw [toList_text, assignment, h]
  cases fields.dest <;> simp

end Fields

namespace Source

/-- A compute line is accepted if and only if its text up to the first blank is the written form of
some fields. These are then the only ones, and the columns are those of the comp and of the jump. -/
theorem fields_split (line : String) :
    let w := untilBlank line.toList
    ((∃ fields, Source.fields line = .ok fields) ↔
      ∃ split : Fields, split.WellFormed ∧ split.text.toList = w) ∧
    ∀ fields, Source.fields line = .ok fields →
      (fields.WellFormed ∧ fields.text.toList = w) ∧
      (∀ split : Fields, split.WellFormed → split.text.toList = w →
        split.dest = fields.dest ∧ split.comp = fields.comp ∧ split.jump = fields.jump) ∧
      (fields.assignment ++ fields.comp.toList <+: w ∧
        fields.compColumn = fields.assignment.length + 1) ∧
      (∀ jump ∈ fields.jump,
        let front := fields.assignment ++ fields.comp.toList ++ [';']
        w = front ++ jump.toList ∧ fields.jumpColumn = front.length + 1) ∧
      (fields.jumpColumn = 0 ↔ fields.jump = none) := by
  intro w
  refine ⟨exists_fields_eq_ok_iff, fun fields h => ?_⟩
  obtain ⟨hform, htext, -⟩ := fieldsOfChars_eq_ok_iff.1 h
  have hjump := Fields.jumpColumn_eq h
  refine ⟨⟨hform, htext⟩, ?_, ⟨?_, ?_⟩, ?_, ?_⟩
  · intro split hsplit hsame
    -- The columns of another split can be put right, and then it is what has been read.
    have hread : fieldsOfChars w = .ok split.placed :=
      fieldsOfChars_eq_ok_iff.2 ⟨⟨hsplit.comp, hsplit.dest, hsplit.jump⟩, hsame, rfl⟩
    obtain rfl := Except.ok.inj (hread.symm.trans h)
    exact ⟨rfl, rfl, rfl⟩
  · have hprefix := fields.assignment_append_prefix
    rwa [htext] at hprefix
  · rw [Fields.compColumn_eq h, Fields.start, Fields.length_assignment]
  · intro jump hmem front
    rw [hmem, Option.isSome_some, if_pos rfl] at hjump
    refine ⟨htext.symm.trans (Fields.text_of_jump hmem), ?_⟩
    rw [hjump, Fields.start]
    simp only [front, List.length_append, Fields.length_assignment, List.length_singleton]
  · rw [hjump]
    cases fields.jump with
    | none => simp
    | some jump =>
      have hne : (fields.start .jump : Int) + 1 ≠ 0 := by omega
      simpa using hne

example : Source.fields "D=D-1;JGT // skip" = .ok ⟨some "D", "D-1", some "JGT", 3, 7⟩ := by
  decide +kernel

/-- A compute line that is not accepted is reported at the first character that cannot belong to a
compute instruction, or behind its text if that is not complete. -/
theorem fault_at_first_impossible (h : Source.fields line = .error fault) (place : Location) :
    let w := untilBlank line.toList
    w ∉ computeTexts ∧
    ∃ n : Nat, (fault.diagnostic (some place) line).location = some (place.atColumn (n + 1)) ∧
      IsGreatest {n | n ≤ w.length ∧ IsViable computeTexts (w.take n)} n ∧
      ∀ c ∈ w[n]?, ¬ IsViable computeTexts (w.take n ++ [c]) := by
  intro w
  have hgreatest := isGreatest_of_fieldsOfChars isSolid_untilBlank h
  refine ⟨?_, fault.index, rfl, hgreatest, ?_⟩
  · intro hmem
    obtain ⟨-, fields, hfields⟩ := mem_computeTexts_iff.1 hmem
    exact absurd (h.symm.trans hfields) (by simp)
  · intro c hc hviable
    obtain ⟨hn, hget⟩ := List.getElem?_eq_some_iff.1 hc
    rw [← hget, List.take_append_getElem] at hviable
    exact absurd (hgreatest.2 ⟨hn, hviable⟩) (Nat.not_succ_le_self _)

/-- A comp is missing between the equals sign and the semicolon. -/
theorem fault_at_missing_comp :
    let line := "AM=;JGT  // skip"
    let place : Location := ⟨"a.asm", 7, 1⟩
    let w := untilBlank line.toList
    Source.fields line = .error ⟨.emptyComputation, 3⟩ ∧ w ∉ computeTexts ∧
      ∃ n : Nat, (Fault.diagnostic ⟨.emptyComputation, 3⟩ (some place) line).location =
          some (place.atColumn (n + 1)) ∧
        IsGreatest {n | n ≤ w.length ∧ IsViable computeTexts (w.take n)} n ∧
        ∀ c ∈ w[n]?, ¬ IsViable computeTexts (w.take n ++ [c]) := by
  intro line place w
  have h : Source.fields line = .error ⟨.emptyComputation, 3⟩ := by decide +kernel
  exact ⟨h, fault_at_first_impossible h place⟩

end Source

end HackToolchain
