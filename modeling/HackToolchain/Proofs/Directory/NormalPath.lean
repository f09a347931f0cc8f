import HackToolchain.Path
import HackToolchain.Settings
import Mathlib.Data.List.TakeWhile

/-!
# Normal paths

Every path that is made from a text is normal: its names are not empty, are no single dots and hold no
slash. Another suffix keeps a path normal. The text of a normal path denotes the path again, so a tool
that is told the path under which another one has written a file finds this file.
-/

namespace HackToolchain

variable {cs part : List Char} {p q : Path} {name suffix text : String} {names : List String}

/-! ### Parts between slashes -/

theorem splitSlash_of_notMem (h : '/' ∉ cs) : splitSlash cs = [cs] := by
  induction cs with
  | nil => rfl
  | cons c cs ih =>
    rw [List.mem_cons, not_or] at h
    rw [splitSlash, if_neg (Ne.symm h.1), ih h.2]

/-- A slash ends a part. -/
theorem splitSlash_append (h : '/' ∉ part) :
    splitSlash (part ++ '/' :: cs) = part :: splitSlash cs := by
  induction part with
  | nil => rfl
  | cons c part ih =>
    rw [List.mem_cons, not_or] at h
    rw [List.cons_append, splitSlash, if_neg (Ne.symm h.1), ih h.2]

theorem notMem_of_mem_splitSlash (h : part ∈ splitSlash cs) : '/' ∉ part := by
  induction cs generalizing part with
  | nil =>
    rw [List.mem_singleton.1 h]
    exact List.not_mem_nil
  | cons c cs ih =>
    rw [splitSlash] at h
    split at h
    · rcases List.mem_cons.1 h with rfl | hlater
      · exact List.not_mem_nil
      · exact ih hlater
    · next hc =>
      have hcons (front : List Char) (hfront : '/' ∉ front) : '/' ∉ c :: front :=
        List.not_mem_cons_of_ne_of_not_mem (Ne.symm hc) hfront
      split at h
      · rw [List.mem_singleton.1 h]
        exact hcons [] List.not_mem_nil
      · next front parts hsplit =>
        rcases List.mem_cons.1 h with rfl | hlater
        · exact hcons front (ih (by rw [hsplit]; exact List.mem_cons_self))
        · exact ih (by rw [hsplit]; exact List.mem_cons_of_mem _ hlater)

namespace Path

/-! ### Normal paths -/

/-- A name in a normal path. -/
structure IsName (name : String) : Prop where
  ne_empty : name ≠ ""
  ne_dot : name ≠ "."
  notMem_slash : '/' ∉ name.toList

/-- A path without empty names, single dots and slashes in its names. -/
structure IsNormal (p : Path) : Prop where
  root_mem : p.root ∈ ["", "/", "//"]
  isName : ∀ name ∈ p.names, IsName name

theorem isName_of_mem_namesOf (h : name ∈ namesOf cs) : IsName name := by
  obtain ⟨hmem, hname⟩ := List.mem_filter.1 h
  obtain ⟨part, hpart, rfl⟩ := List.mem_map.1 hmem
  rw [Bool.and_eq_true, decide_eq_true_eq, decide_eq_true_eq] at hname
  exact ⟨hname.1, hname.2, by
    rw [String.toList_ofList]
    exact notMem_of_mem_splitSlash hpart⟩

/-- What a text denotes is normal. -/
theorem isNormal_ofText (text : String) : (ofText text).IsNormal where
  root_mem := by
    rw [ofText, rootOf]
    split <;> simp
  isName _ h := isName_of_mem_namesOf h

/-- A normal name is found behind a slash. -/
theorem namesOf_append (h : IsName name) :
    namesOf (name.toList ++ '/' :: cs) = name :: namesOf cs := by
  rw [namesOf, splitSlash_append h.notMem_slash, List.map_cons, String.ofList_toList,
    List.filter_cons_of_pos (by simp [h.ne_empty, h.ne_dot])]
  rfl

theorem namesOf_toList (h : IsName name) : namesOf name.toList = [name] := by
  rw [namesOf, splitSlash_of_notMem h.notMem_slash, List.map_singleton, String.ofList_toList,
    List.filter_cons_of_pos (by simp [h.ne_empty, h.ne_dot]), List.filter_nil]

/-- Normal names are found between slashes. -/
theorem namesOf_intercalate (h : ∀ name ∈ names, IsName name) :
    namesOf ("/".intercalate names).toList = names := by
  induction names with
  | nil => rfl
  | cons name names ih =>
    obtain ⟨hname, hnames⟩ := List.forall_mem_cons.1 h
    cases names with
    | nil => rw [String.intercalate_singleton, namesOf_toList hname]
    | cons name' names =>
      rw [String.intercalate_cons_cons, String.toList_append, String.toList_append,
        List.append_assoc]
      exact (namesOf_append hname).trans (congrArg (name :: ·) (ih hnames))

/-- Slashes at the beginning hold no name. -/
theorem namesOf_slash : namesOf ('/' :: cs) = namesOf cs := by
  rw [namesOf, namesOf, splitSlash, if_pos rfl, List.map_cons, List.filter_cons_of_neg (by simp)]

/-- Normal names do not begin with a slash. -/
theorem head?_intercalate (h : ∀ name ∈ names, IsName name) :
    ("/".intercalate names).toList.head? ≠ some '/' := by
  cases names with
  | nil => exact fun hnil => by simp at hnil
  | cons name names =>
    obtain ⟨hname, -⟩ := List.forall_mem_cons.1 h
    have hne : name.toList ≠ [] := fun hnil => hname.ne_empty (String.toList_eq_nil_iff.1 hnil)
    obtain ⟨c, cs, hcs⟩ := List.exists_cons_of_ne_nil hne
    have hc : c ≠ '/' := by
      rintro rfl
      exact hname.notMem_slash (by rw [hcs]; exact List.mem_cons_self)
    cases names with
    | nil =>
      rw [String.intercalate_singleton, hcs, List.head?_cons]
      exact fun heq => hc (Option.some.inj heq)
    | cons name' names =>
      rw [String.intercalate_cons_cons, String.toList_append, String.toList_append, hcs]
      exact fun heq => hc (Option.some.inj heq)

theorem takeWhile_slash_of_head?_ne (h : cs.head? ≠ some '/') : cs.takeWhile (· = '/') = [] := by
  cases cs with
  | nil => rfl
  | cons c cs => simpa using h

theorem rootOf_of_head?_ne (h : cs.head? ≠ some '/') : rootOf cs = "" := by
  rw [rootOf, takeWhile_slash_of_head?_ne h]
  rfl

theorem rootOf_slash (h : cs.head? ≠ some '/') :
    rootOf ('/' :: cs) = "/" ∧ rootOf ('/' :: '/' :: cs) = "//" := by
  simp [rootOf, takeWhile_slash_of_head?_ne h]

theorem text_eq (h : p.root ++ "/".intercalate p.names ≠ "") :
    p.text = p.root ++ "/".intercalate p.names := by
  rw [text]
  exact if_neg h

/-- The text of a normal path denotes the path. -/
theorem ofText_text (h : p.IsNormal) : ofText p.text = p := by
  obtain ⟨root, names⟩ := p
  have hroot : root = "" ∨ root = "/" ∨ root = "//" := by simpa using h.root_mem
  have hhead : ("/".intercalate names).toList.head? ≠ some '/' := head?_intercalate h.isName
  have hfound : namesOf ("/".intercalate names).toList = names := namesOf_intercalate h.isName
  rcases hroot with rfl | rfl | rfl
  · by_cases hempty : "/".intercalate names = ""
    · -- Nothing but a dot is written for a path without names.
      obtain rfl : names = [] := by
        rw [← hfound, hempty]
        rfl
      rfl
    · rw [text_eq (by simpa using hempty), String.empty_append, ofText, rootOf_of_head?_ne hhead,
        hfound]
  · have htoList : ("/" ++ "/".intercalate names).toList = '/' :: ("/".intercalate names).toList := by
      rw [String.toList_append]
      rfl
    rw [text_eq (by simp), ofText, htoList, (rootOf_slash hhead).1, namesOf_slash, hfound]
  · have htoList : ("//" ++ "/".intercalate names).toList =
        '/' :: '/' :: ("/".intercalate names).toList := by
      rw [String.toList_append]
      rfl
    rw [text_eq (by simp), ofText, htoList, (rootOf_slash hhead).2, namesOf_slash, namesOf_slash,
      hfound]

/-! ### Suffixes -/

theorem mem_of_mem_stem {c : Char} (h : c ∈ (stem name).toList) : c ∈ name.toList := by
  rw [stem] at h
  split at h
  · exact h
  · rw [String.toList_ofList] at h
    exact List.mem_of_mem_take h

/-- A suffix that is not empty is a dot and at least one more character. -/
theorem exists_of_isSuffix (h : isSuffix suffix = true) (hne : suffix ≠ "") :
    ∃ c cs, suffix.toList = '.' :: c :: cs ∧ '/' ∉ suffix.toList := by
  rw [isSuffix] at h
  split at h
  · next hnil => exact absurd (String.toList_eq_nil_iff.1 hnil) hne
  · next first rest hcons =>
    simp only [Bool.and_eq_true, beq_iff_eq, Bool.not_eq_true', List.isEmpty_eq_false_iff] at h
    obtain ⟨⟨rfl, hrest⟩, hslash⟩ := h
    obtain ⟨c, cs, rfl⟩ := List.exists_cons_of_ne_nil hrest
    refine ⟨c, cs, hcons, ?_⟩
    rw [hcons, List.mem_cons, not_or]
    exact ⟨by decide, by simpa using hslash⟩

theorem IsName.stem_append (h : IsName name) (hsuffix : isSuffix suffix = true) (hne : suffix ≠ "") :
    IsName (stem name ++ suffix) := by
  obtain ⟨c, cs, hcons, hslash⟩ := exists_of_isSuffix hsuffix hne
  have hlong (short : String) (hshort : short.toList.length < 2) : stem name ++ suffix ≠ short := by
    rintro rfl
    rw [String.toList_append, List.length_append, hcons, List.length_cons, List.length_cons] at hshort
    omega
  refine ⟨hlong "" (by decide), hlong "." (by decide), ?_⟩
  rw [String.toList_append, List.mem_append, not_or]
  exact ⟨fun hmem => h.notMem_slash (mem_of_mem_stem hmem), hslash⟩

/-- Another suffix keeps a path normal. -/
theorem IsNormal.withSuffix (h : p.IsNormal) (hne : suffix ≠ "")
    (hq : p.withSuffix suffix = .ok q) : q.IsNormal := by
  rw [Path.withSuffix] at hq
  split at hq
  · simp at hq
  · next hsuffix =>
    split at hq
    · simp at hq
    · next name hname =>
      obtain rfl := Except.ok.inj hq
      refine ⟨h.root_mem, fun part hpart => ?_⟩
      rcases List.mem_append.1 hpart with hfront | hlast
      · exact h.isName part (List.dropLast_subset _ hfront)
      · rw [List.mem_singleton.1 hlast]
        exact (h.isName name (List.mem_of_getLast? hname)).stem_append (by simpa using hsuffix) hne

end Path

/-- A suffix that can be used on the sample is one that can be put behind every name. -/
theorem Environment.isUsable_iff :
    isUsable suffix = true ↔ Path.isSuffix suffix = true ∧ suffix ≠ "" := by
  have hname : (Path.ofText sampleName).name? = some sampleName := by decide
  have hstem : Path.stem sampleName = sampleName := by decide
  rw [isUsable, Path.withSuffix, hname, Bool.and_eq_true, decide_eq_true_eq]
  cases hsuffix : Path.isSuffix suffix with
  | false => simp
  | true =>
    simp only [hstem, Path.name?, Bool.not_true, Bool.false_eq_true, if_false,
      List.getLast?_concat, BEq.rfl, and_true, true_and]
    constructor
    · rintro hlong rfl
      simp at hlong
    · intro hne
      obtain ⟨c, cs, hcons, -⟩ := Path.exists_of_isSuffix hsuffix hne
      rw [hcons, List.length_cons, List.length_cons]
      omega

/-- The suffix of an environment can be used. -/
theorem Settings.isUsable_outputSuffix (e : Environment) :
    Environment.isUsable (ofEnvironment e).outputSuffix = true := by
  have hsuffix : (ofEnvironment e).outputSuffix = e.suffix?.getD ".hack" := rfl
  rw [hsuffix]
  cases hgiven : e.suffix? with
  | none => decide
  | some suffix =>
    obtain ⟨text, -, hsome⟩ := Option.bind_eq_some_iff.1 hgiven
    simp only [Option.ite_none_right_eq_some, Option.some.injEq] at hsome
    rw [Option.getD_some, ← hsome.2]
    exact hsome.1

theorem Settings.outputSuffix_ofEnvironment (e : Environment) :
    (ofEnvironment e).outputSuffix ≠ "" :=
  (Environment.isUsable_iff.1 (isUsable_outputSuffix e)).2

end HackToolchain
