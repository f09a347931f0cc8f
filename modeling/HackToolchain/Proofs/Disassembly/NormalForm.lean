import HackToolchain.Proofs.Disassembly.Reassembly

/-!
# The normal form of a program

Disassembling what was assembled brings a source text into a normal form. Every instruction is left
with a line of its own, in source order: an address load as the decimal address of its operand, a
compute instruction as it was written, but without a destination or a jump that is `null`. Labels,
remarks and layout are gone. The normal form is assembled to the same words, and it is its own
normal form.
-/

namespace HackToolchain

open Text Denotation Disassembly

variable {fields : Fields} {w : Word} {words : List Word} {file source raw : String}
variable {cs part rest : List Char} {number : Nat} {s : Statement}
variable {program statements : List Statement}

/-! ### Compute instructions without `null` -/

/-- The text of a compute instruction without a destination that is written as `null`. -/
def withoutLeadingNull (cs : List Char) : List Char :=
  if "null=".toList <+: cs then cs.drop 5 else cs

/-- The text of a compute instruction without a jump that is written as `null`. -/
def withoutTrailingNull (cs : List Char) : List Char :=
  if ";null".toList <:+ cs then cs.take (cs.length - 5) else cs

theorem isSeparator_of_mem_null : ∀ c ∈ nullMnemonic.toList, Source.isSeparator c = false := by
  have hall : (nullMnemonic.toList.all fun c => !Source.isSeparator c) = true := by decide
  intro c hc
  simpa using List.all_eq_true.1 hall c hc

theorem withoutLeadingNull_equals (h : ∀ c ∈ part, Source.isSeparator c = false) :
    withoutLeadingNull (part ++ '=' :: rest) =
      if part = nullMnemonic.toList then rest else part ++ '=' :: rest := by
  rw [withoutLeadingNull]
  by_cases hnull : part = nullMnemonic.toList
  · subst hnull
    rw [if_pos rfl, if_pos ⟨rest, rfl⟩]
    rfl
  · rw [if_neg hnull, if_neg]
    rintro ⟨behind, hbehind⟩
    have hsame : nullMnemonic.toList ++ '=' :: behind = part ++ '=' :: rest := hbehind
    exact hnull (Source.eq_of_append_separator_eq isSeparator_of_mem_null h rfl rfl hsame).1.symm

theorem withoutLeadingNull_of_ne (h : ∀ rest, Source.afterSegment cs ≠ '=' :: rest) :
    withoutLeadingNull cs = cs := by
  rw [withoutLeadingNull, if_neg]
  rintro ⟨behind, rfl⟩
  exact h behind (Source.afterSegment_append isSeparator_of_mem_null rfl)

theorem withoutTrailingNull_semicolon (h : ∀ c ∈ part, Source.isSeparator c = false) :
    withoutTrailingNull (rest ++ ';' :: part) =
      if part = nullMnemonic.toList then rest else rest ++ ';' :: part := by
  rw [withoutTrailingNull]
  by_cases hnull : part = nullMnemonic.toList
  · subst hnull
    rw [if_pos rfl, if_pos ⟨rest, rfl⟩, List.take_left']
    rw [List.length_append]
    rfl
  · rw [if_neg hnull, if_neg]
    rintro ⟨before, hbefore⟩
    have hsame : before ++ ';' :: nullMnemonic.toList = rest ++ ';' :: part := hbefore
    exact hnull (Source.eq_of_separator_append_eq isSeparator_of_mem_null h rfl rfl hsame).2.2.symm

/-- A text whose last separator is no semicolon does not end with a jump. -/
theorem withoutTrailingNull_of_ne (h : ∀ c ∈ part, Source.isSeparator c = false)
    (hrest : rest = [] ∨ ∃ before, rest = before ++ ['=']) :
    withoutTrailingNull (rest ++ part) = rest ++ part := by
  rw [withoutTrailingNull, if_neg]
  rintro ⟨before, hbefore⟩
  have hsame : before ++ ';' :: nullMnemonic.toList = rest ++ part := hbefore
  rcases hrest with rfl | ⟨front, rfl⟩
  · have hmem : ';' ∈ part := by
      rw [← List.nil_append part, ← hsame]
      exact List.mem_append_right _ List.mem_cons_self
    exact absurd (h ';' hmem) (by decide)
  · rw [List.append_assoc, List.singleton_append] at hsame
    have heq := (Source.eq_of_separator_append_eq isSeparator_of_mem_null h rfl rfl hsame).2.1
    exact absurd heq (by decide)

namespace Fields

theorem withoutLeadingNull_text (h : fields.WellFormed) :
    withoutLeadingNull fields.text.toList =
      { fields with dest := optional (fields.dest.getD nullMnemonic) }.text.toList := by
  obtain ⟨dest, comp, jump, compColumn, jumpColumn⟩ := fields
  rw [toList_text, toList_text]
  cases dest with
  | none =>
    -- The first separator is the semicolon, if there is any.
    apply withoutLeadingNull_of_ne
    intro rest hrest
    cases jump with
    | none =>
      rw [List.nil_append, List.append_nil, Source.afterSegment_of_forall h.comp.2] at hrest
      exact absurd hrest (by simp)
    | some jump =>
      rw [List.nil_append, Source.afterSegment_append h.comp.2 rfl] at hrest
      exact absurd hrest (by simp)
  | some dest =>
    have hdest := (h.dest dest rfl).2
    simp only [List.append_assoc, List.cons_append, List.nil_append,
      withoutLeadingNull_equals hdest, Option.getD_some, optional, String.toList_inj]
    by_cases hnull : dest = nullMnemonic
    · rw [if_pos hnull, if_pos hnull, List.nil_append]
    · rw [if_neg hnull, if_neg hnull]
      simp only [List.append_assoc, List.cons_append, List.nil_append]

theorem withoutTrailingNull_text (h : fields.WellFormed) :
    withoutTrailingNull fields.text.toList =
      { fields with jump := optional (fields.jump.getD nullMnemonic) }.text.toList := by
  obtain ⟨dest, comp, jump, compColumn, jumpColumn⟩ := fields
  rw [toList_text, toList_text]
  cases jump with
  | none =>
    rw [List.append_nil, withoutTrailingNull_of_ne h.comp.2]
    · simp [optional]
    · cases dest with
      | none => exact .inl rfl
      | some dest => exact .inr ⟨dest.toList, rfl⟩
  | some jump =>
    have hjump := (h.jump jump rfl).2
    simp only [withoutTrailingNull_semicolon hjump, Option.getD_some, optional, String.toList_inj]
    by_cases hnull : jump = nullMnemonic
    · rw [if_pos hnull, if_pos hnull, List.append_nil]
    · rw [if_neg hnull, if_neg hnull]

/-- What is left of the text of some fields is the text of the fields without `null`. -/
theorem withoutNull_text (h : fields.WellFormed) :
    withoutTrailingNull (withoutLeadingNull fields.text.toList) = fields.bare.text.toList := by
  rw [withoutLeadingNull_text h, withoutTrailingNull_text]
  · rfl
  · refine ⟨h.comp, fun dest hdest => h.dest dest ?_, h.jump⟩
    simp only [optional] at hdest
    cases hd : fields.dest <;> simp_all

end Fields

/-! ### Lines of the normal form -/

/-- The line of the normal form that a source line of a program leaves. -/
def normalLine? (program : List Statement) (raw : String) : Option String :=
  let line := trim raw
  match LineKind.of line with
  | .addressLoad =>
    let operand := String.ofList (untilBlank (line.toList.drop 1))
    some ("@" ++ toString (addressOf .default program operand))
  | .compute =>
    some (String.ofList (withoutTrailingNull (withoutLeadingNull (untilBlank line.toList))))
  | .skip | .label => none

/-- The normal form of the source text of a program. -/
def normalText (program : List Statement) (source : String) : String :=
  joinLines ((lines source).filterMap (normalLine? program)) ++ "\n"

/-- The line of the normal form that a statement of a program leaves. -/
def Statement.normalText? (program : List Statement) (s : Statement) : Option String :=
  match s.command with
  | .addressLoad operand => some ("@" ++ toString (addressOf .default program operand))
  | .compute fields => some fields.bare.text
  | .label _ | .remark => none

theorem Source.eq_of_operand {line operand : String} (h : Source.operand line = .ok operand) :
    operand = String.ofList (untilBlank (line.toList.drop 1)) := by
  rw [Source.operand] at h
  split at h
  · exact absurd h (by simp)
  · next c cs hcs =>
    rw [hcs]
    exact (Except.ok.inj h).symm

/-- A line and its statement leave the same line of the normal form. -/
theorem normalLine?_of_ofLine {statement : Option Statement}
    (h : Statement.ofLine file number raw = .ok statement) :
    normalLine? program raw = statement.bind (Statement.normalText? program) := by
  rw [Statement.ofLine] at h
  rw [normalLine?]
  cases hcommand : Statement.commandOf (trim raw) with
  | error fault => simp [hcommand] at h
  | ok command =>
    simp only [hcommand] at h
    obtain rfl := Except.ok.inj h
    rw [Statement.commandOf] at hcommand
    -- The kind of the line decides which of its parts the command holds.
    cases hkind : LineKind.of (trim raw) with
    | skip =>
      simp only [hkind] at hcommand ⊢
      obtain rfl := Except.ok.inj hcommand
      rfl
    | addressLoad =>
      simp only [hkind] at hcommand ⊢
      cases hoperand : Source.operand (trim raw) with
      | error fault => simp [hoperand, Except.map] at hcommand
      | ok operand =>
        rw [hoperand] at hcommand
        obtain rfl := Except.ok.inj hcommand
        rw [← Source.eq_of_operand hoperand]
        rfl
    | compute =>
      simp only [hkind] at hcommand ⊢
      cases hfields : Source.fields (trim raw) with
      | error fault => simp [hfields, Except.map] at hcommand
      | ok fields =>
        rw [hfields] at hcommand
        obtain rfl := Except.ok.inj hcommand
        obtain ⟨hform, htext, -⟩ := Source.fieldsOfChars_eq_ok_iff.1 hfields
        rw [← htext, Fields.withoutNull_text hform, String.ofList_toList]
        rfl
    | label =>
      simp only [hkind] at hcommand ⊢
      cases hname : Source.labelName (trim raw) with
      | error fault => simp [hname, Except.map] at hcommand
      | ok name =>
        rw [hname] at hcommand
        obtain rfl := Except.ok.inj hcommand
        rfl

theorem filterMap_normalLine? {raws : List String}
    (h : Statement.ofLinesFrom file number raws = .ok statements) :
    raws.filterMap (normalLine? program) =
      statements.filterMap (Statement.normalText? program) := by
  induction raws generalizing number statements with
  | nil =>
    obtain rfl := Except.ok.inj h
    rfl
  | cons raw raws ih =>
    rw [Statement.ofLinesFrom] at h
    split at h
    · exact absurd h (by simp)
    · next statement hline =>
      split at h
      · exact absurd h (by simp)
      · next behind hbehind =>
        obtain rfl := Except.ok.inj h
        rw [List.filterMap_cons, normalLine?_of_ofLine hline, ih hbehind, List.filterMap_append]
        cases statement with
        | none => rfl
        | some s =>
          rw [Option.bind_some, Option.toList_some, List.filterMap_cons, List.filterMap_nil]
          cases s.normalText? program <;> rfl

/-! ### Words of the normal form -/

/-- An instruction leaves the canonical text of its word. -/
theorem canonical_normalText? (h : word? .default program s = some (.ok w)) :
    ∃ t, s.normalText? program = some t ∧ Canonical w t := by
  rw [Statement.normalText?]
  rcases word?_eq_some_iff.1 h with ⟨operand, hs, hword⟩ | ⟨fields, hs, hword⟩
  · obtain ⟨⟨hlow, hhigh⟩, rfl⟩ := Word.ofAddress_eq_ok_iff.1 hword
    have hsmall : addressOf .default program operand ≤ 32767 := hhigh
    rw [hs]
    refine ⟨_, rfl, ?_⟩
    -- An address in range is a natural number, which is printed without a sign.
    obtain ⟨n, hn⟩ := Int.eq_ofNat_of_zero_le hlow
    rw [hn] at hsmall ⊢
    exact .address n (by omega)
  · rw [hs]
    exact ⟨_, rfl, .compute fields w hword⟩

theorem normalText?_eq_none (h : word? .default program s = none) :
    s.normalText? program = none := by
  rw [word?] at h
  rw [Statement.normalText?]
  cases hs : s.command <;> simp_all

/-- The instructions of a program leave the canonical texts of their words. -/
theorem forall₂_canonical_normalText?
    (h : statements.filterMap (word? .default program) = words.map Except.ok) :
    List.Forall₂ Canonical words (statements.filterMap (Statement.normalText? program)) := by
  induction statements generalizing words with
  | nil =>
    obtain rfl := List.map_eq_nil_iff.1 h.symm
    exact .nil
  | cons s statements ih =>
    rw [List.filterMap_cons] at h ⊢
    cases hword : word? .default program s with
    | none =>
      rw [hword] at h
      rw [normalText?_eq_none hword]
      exact ih h
    | some result =>
      rw [hword] at h
      obtain ⟨w, words, rfl, rfl, hwords⟩ := List.map_eq_cons_iff.1 h.symm
      obtain ⟨t, ht, hcanonical⟩ := canonical_normalText? hword
      rw [ht]
      exact .cons hcanonical (ih hwords.symm)

theorem writtenWords_of_canonical {ls : List String} (h : List.Forall₂ Canonical words ls) :
    writtenWords words = words := by
  induction h with
  | nil => rfl
  | @cons w t words ls hcanonical _ ih =>
    have hsolid := isSolid_of_isWord hcanonical.isWord
    have hkept : (!isAllBlank w) = true := by
      rw [isAllBlank_of_isWord hcanonical.isWord]
      rfl
    rw [writtenWords] at ih ⊢
    rw [List.filter_cons, if_pos hkept, List.map_cons, ih, trim_of_isSolid hsolid]

/-- The disassembly of an assembled text is its normal form. The normal form is assembled to the
same words, and the disassembly of these gives the normal form again. -/
theorem assemble_normalText (h : assemble file source = .ok words) :
    ∃ program, Statement.ofText file source = .ok program ∧
      sourceText [] words = .ok (normalText program source) ∧
      ∀ file', assemble file' (normalText program source) = .ok words ∧
        ∀ words', assemble file' (normalText program source) = .ok words' →
          sourceText [] words' = .ok (normalText program source) := by
  obtain ⟨program, hprogram, hrun⟩ := assemble_eq_ok_iff.1 h
  have hcanonical : List.Forall₂ Canonical words
      ((lines source).filterMap (normalLine? program)) := by
    rw [filterMap_normalLine? hprogram]
    exact forall₂_canonical_normalText? (generate_of_result hrun).2
  have hsource : sourceText [] words = .ok (normalText program source) := by
    refine sourceText_eq_ok_iff.2 ⟨_, ?_, rfl⟩
    rwa [writtenWords_of_canonical hcanonical]
  refine ⟨program, hprogram, hsource, fun file' => ?_⟩
  have hsame : assemble file' (normalText program source) = .ok words :=
    assemble_of_canonical hcanonical file'
  refine ⟨hsame, fun words' hwords' => ?_⟩
  obtain rfl : words = words' := Except.ok.inj (hsame.symm.trans hwords')
  exact hsource

/-- A program with a remark, a variable, a label, and fields that are written as `null`. -/
def countdownSource : String :=
  "// count\n@x\n(LOOP)\n  null=M-1;null down\n\nD=M;JGT\n@LOOP\n"

def countdownWords : List Word :=
  ["0000000000010000", "1111110010000000", "1111110000010001", "0000000000000001"]

theorem assemble_normalText_countdown :
    assemble "a.asm" countdownSource = .ok countdownWords ∧
      ∃ program, Statement.ofText "a.asm" countdownSource = .ok program ∧
        sourceText [] countdownWords = .ok (normalText program countdownSource) ∧
        ∀ file', assemble file' (normalText program countdownSource) = .ok countdownWords ∧
          ∀ words', assemble file' (normalText program countdownSource) = .ok words' →
            sourceText [] words' = .ok (normalText program countdownSource) := by
  have h : assemble "a.asm" countdownSource = .ok countdownWords := by decide +kernel
  exact ⟨h, assemble_normalText h⟩

example : sourceText [] countdownWords = .ok "@16\nM-1\nD=M;JGT\n@1\n" := by
  decide +kernel

end HackToolchain
