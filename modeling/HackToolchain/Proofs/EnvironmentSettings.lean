import HackToolchain.Assembler
import HackToolchain.Proofs.Directory.NormalPath

/-!
# Settings from the environment

The environment gives the settings any texts. A text that cannot be used is ignored, so the settings
can always be used: the first address of variables can be loaded, and the suffix can be put behind
every name. It is tried on one name only, but what is wrong with a suffix does not depend on the name
before it. So every source with a name has a default output beside it.

The suffix takes the place of the extension of the source. A name has an extension if something
stands before and behind its last dot; the names of hidden files and names that end with a dot have
none, and are kept as they are.
-/

namespace HackToolchain

variable {name base extension suffix : String} {p : Path} {e : Environment}

/-! ### Names and their extensions -/

namespace Path

/-- A name with an extension: something before its last dot, and something behind it. -/
structure IsExtended (base extension name : String) : Prop where
  name_eq : name = base ++ "." ++ extension
  base_ne : base ≠ ""
  extension_ne : extension ≠ ""
  notMem_dot : '.' ∉ extension.toList

theorem IsExtended.toList_eq (h : IsExtended base extension name) :
    name.toList = base.toList ++ '.' :: extension.toList := by
  rw [h.name_eq, String.toList_append, String.toList_append, List.append_assoc]
  rfl

/-- What stands behind the last dot. -/
theorem takeWhile_reverse {front back : List Char} (h : '.' ∉ back) :
    (front ++ '.' :: back).reverse.takeWhile (· ≠ '.') = back.reverse := by
  rw [List.reverse_append, List.reverse_cons, List.append_assoc, List.takeWhile_append_of_pos]
  · simp
  · intro c hc
    rw [decide_eq_true_eq]
    rintro rfl
    exact h (List.mem_reverse.1 hc)

/-- A list with a dot in it falls into what stands before and behind the last one. -/
theorem exists_lastDot {cs : List Char} (h : '.' ∈ cs) :
    ∃ front back, cs = front ++ '.' :: back ∧ '.' ∉ back := by
  obtain ⟨back, front, hsplit, hback⟩ := List.eq_append_cons_of_mem (List.mem_reverse.2 h)
  refine ⟨front.reverse, back.reverse, ?_, fun hmem => hback (List.mem_reverse.1 hmem)⟩
  rw [← List.reverse_inj, hsplit]
  simp

/-- The stem of a name is what stands before its extension. -/
theorem stem_of_isExtended (h : IsExtended base extension name) : stem name = base := by
  have hbase : base.toList.length ≠ 0 := fun hnil =>
    h.base_ne (String.toList_eq_nil_iff.1 (List.length_eq_zero_iff.1 hnil))
  have hextended : extension.toList.length ≠ 0 := fun hnil =>
    h.extension_ne (String.toList_eq_nil_iff.1 (List.length_eq_zero_iff.1 hnil))
  have hlength : name.toList.length = base.toList.length + (extension.toList.length + 1) := by
    rw [h.toList_eq, List.length_append, List.length_cons]
  have hbehind : (name.toList.reverse.takeWhile (· ≠ '.')).length = extension.toList.length := by
    rw [h.toList_eq, takeWhile_reverse h.notMem_dot, List.length_reverse]
  simp only [stem, hbehind, hlength]
  rw [if_neg (by omega), Nat.add_sub_cancel, h.toList_eq, List.take_left', String.ofList_toList]
  rfl

/-- A name is its own stem if it has no extension. -/
theorem stem_eq_self_iff :
    stem name = name ↔ ∀ base extension, ¬ IsExtended base extension name := by
  constructor
  · intro hstem base extension h
    -- The name would be longer than itself.
    have hlength := congrArg List.length h.toList_eq
    rw [← stem_of_isExtended h, hstem, List.length_append, List.length_cons] at hlength
    omega
  · intro h
    rw [stem]
    split
    · rfl
    · next hlong =>
      rw [not_or, Nat.not_le] at hlong
      have hdot : '.' ∈ name.toList := by
        by_contra hnone
        have hall : name.toList.reverse.takeWhile (· ≠ '.') = name.toList.reverse := by
          refine List.takeWhile_eq_self_iff.2 fun c hc => decide_eq_true ?_
          rintro rfl
          exact hnone (List.mem_reverse.1 hc)
        rw [hall, List.length_reverse] at hlong
        omega
      -- Something stands before and behind the last dot, so there is an extension.
      obtain ⟨front, back, hname, hback⟩ := exists_lastDot hdot
      rw [hname, takeWhile_reverse hback] at hlong
      simp only [List.length_append, List.length_cons, List.length_reverse] at hlong
      have hfront : front ≠ [] := List.ne_nil_of_length_pos (by omega)
      have hbehind : back ≠ [] := List.ne_nil_of_length_pos (by omega)
      have hjoined : name = String.ofList front ++ "." ++ String.ofList back := by
        rw [← String.toList_inj, hname]
        simp
      exact absurd ⟨hjoined, by simpa using hfront, by simpa using hbehind, by simpa using hback⟩
        (h _ _)

/-- Something is left of a name without its extension. -/
theorem stem_ne_empty (h : name ≠ "") : stem name ≠ "" := by
  by_cases hextended : ∃ base extension, IsExtended base extension name
  · obtain ⟨base, extension, hextended⟩ := hextended
    rw [stem_of_isExtended hextended]
    exact hextended.base_ne
  · have hself : stem name = name :=
      stem_eq_self_iff.2 fun base extension hbase => hextended ⟨base, extension, hbase⟩
    rwa [hself]

/-- A name with a suffix behind it is not that of the folder above. -/
theorem stem_append_ne_dots (h : name ≠ "") (hform : isSuffix suffix = true) (hne : suffix ≠ "") :
    stem name ++ suffix ≠ ".." := by
  intro hdots
  obtain ⟨c, cs, hcons, -⟩ := exists_of_isSuffix hform hne
  have hstem : (stem name).toList ≠ [] := fun hnil =>
    stem_ne_empty h (String.toList_eq_nil_iff.1 hnil)
  have hpos := List.length_pos_iff.2 hstem
  -- The suffix has two characters, and there is one before it.
  have hlength : (stem name ++ suffix).toList.length = 2 := by
    rw [hdots]
    rfl
  rw [String.toList_append, hcons, List.length_append, List.length_cons, List.length_cons] at hlength
  omega

/-- A path beside a source: in the same folder, with the name of the source, in which a suffix takes
the place of the extension. -/
structure IsBeside (source : Path) (suffix : String) (out : Path) : Prop where
  root_eq : out.root = source.root
  folder_eq : out.names.dropLast = source.names.dropLast
  extended : ∀ name base extension, source.name? = some name → IsExtended base extension name →
    out.name? = some (base ++ suffix)
  unextended : ∀ name, source.name? = some name →
    (∀ base extension, ¬ IsExtended base extension name) → out.name? = some (name ++ suffix)
  /-- The name does not lead out of the folder. -/
  ne_dots : out.name? ≠ some ".."
  /-- The path is found again by its text. -/
  ofText_text : ofText out.text = out

/-- A path with a name can get every suffix that can be used, and stays beside what it was. -/
theorem exists_withSuffix (hp : p.IsNormal) (hname : p.name? = some name)
    (hsuffix : Environment.isUsable suffix = true) :
    ∃ q, p.withSuffix suffix = .ok q ∧ p.IsBeside suffix q := by
  obtain ⟨hform, hne⟩ := Environment.isUsable_iff.1 hsuffix
  have hq : p.withSuffix suffix =
      .ok { p with names := p.names.dropLast ++ [stem name ++ suffix] } := by
    rw [Path.withSuffix, hform, hname]
    rfl
  have hlast : (p.names.dropLast ++ [stem name ++ suffix]).getLast? = some (stem name ++ suffix) :=
    List.getLast?_concat
  refine ⟨_, hq, rfl, List.dropLast_concat, ?_, ?_, ?_, Path.ofText_text (hp.withSuffix hne hq)⟩
  · intro other base extension hother hextended
    obtain rfl := Option.some.inj (hname.symm.trans hother)
    rw [name?, hlast, stem_of_isExtended hextended]
  · intro other hother hextended
    obtain rfl := Option.some.inj (hname.symm.trans hother)
    rw [name?, hlast, stem_eq_self_iff.2 hextended]
  · rw [name?, hlast]
    intro hdots
    have hfull := (hp.isName name (List.mem_of_getLast? hname)).ne_empty
    exact stem_append_ne_dots hfull hform hne (Option.some.inj hdots)

end Path

/-! ### The settings -/

namespace Settings

/-- Settings that can be used: variables begin at an address that can be loaded, addresses have 15
bits, and the suffix is a dot with something behind it that leads into no folder. -/
structure IsUsable (s : Settings) : Prop where
  base_nonneg : 0 ≤ s.variableBase
  base_le : s.variableBase ≤ 32767
  maxAddress_eq : s.maxAddress = 32767
  suffix_eq : ∃ c cs, s.outputSuffix.toList = '.' :: c :: cs
  notMem_slash : '/' ∉ s.outputSuffix.toList

/-- The first address of variables is one that can be loaded. -/
theorem variableBase_ofEnvironment (e : Environment) :
    0 ≤ (ofEnvironment e).variableBase ∧ (ofEnvironment e).variableBase ≤ 32767 := by
  have hbase : (ofEnvironment e).variableBase = e.base?.getD 16 := rfl
  rw [hbase]
  cases hgiven : e.base? with
  | none => decide
  | some base =>
    obtain ⟨text, -, hread⟩ := Option.bind_eq_some_iff.1 hgiven
    split at hread
    · obtain ⟨hrange, heq⟩ := Option.ite_none_right_eq_some.1 hread
      obtain rfl := Option.some.inj heq
      exact hrange
    · simp at hread

theorem isUsable_ofEnvironment (e : Environment) : (ofEnvironment e).IsUsable := by
  obtain ⟨hlow, hhigh⟩ := variableBase_ofEnvironment e
  obtain ⟨hform, hne⟩ := Environment.isUsable_iff.1 (isUsable_outputSuffix e)
  obtain ⟨c, cs, hcons, hslash⟩ := Path.exists_of_isSuffix hform hne
  exact ⟨hlow, hhigh, rfl, ⟨c, cs, hcons⟩, hslash⟩

/-- Every environment gives settings that can be used, each value being told by its own variable
alone. Under these settings, every source with a name has a default output beside it, whether it is
given or remembered. -/
theorem ofEnvironment_usable (e : Environment) :
    (ofEnvironment e).IsUsable ∧
    (∀ e' : Environment,
      (e'.variableBase = e.variableBase →
        (ofEnvironment e').variableBase = (ofEnvironment e).variableBase) ∧
      (e'.outputSuffix = e.outputSuffix →
        (ofEnvironment e').outputSuffix = (ofEnvironment e).outputSuffix) ∧
      (e'.rangeCheck = e.rangeCheck →
        (ofEnvironment e').rangeCheck = (ofEnvironment e).rangeCheck)) ∧
    ∀ (a : Assembler) (text name : String), a.settings = ofEnvironment e →
      (Path.ofText text).name? = some name →
      ∃ out, a.outputPath (some (Path.ofText text)) = .ok out ∧
        (a.source = some (Path.ofText text) → a.outputPath none = .ok out) ∧
        (Path.ofText text).IsBeside a.settings.outputSuffix out := by
  refine ⟨isUsable_ofEnvironment e, fun e' => ⟨?_, ?_, ?_⟩, fun a text name ha hname => ?_⟩
  · intro hsame
    simp only [ofEnvironment, Environment.base?, hsame]
  · intro hsame
    simp only [ofEnvironment, Environment.suffix?, hsame]
  · intro hsame
    simp only [ofEnvironment, Environment.check?, hsame]
  · obtain ⟨out, hout, hbeside⟩ :=
      Path.exists_withSuffix (Path.isNormal_ofText text) hname (isUsable_outputSuffix e)
    rw [← ha] at hout hbeside
    have houtput : a.outputBeside (Path.ofText text) = .ok out := by
      rw [Assembler.outputBeside, hout]
      rfl
    refine ⟨out, houtput, fun hsource => ?_, hbeside⟩
    rw [Assembler.outputPath, hsource]
    exact houtput

/-- A base with a sign and an underscore, a suffix without its dot, and a check that is off. -/
def looseEnvironment : Environment where
  variableBase := some " +1_024\n"
  outputSuffix := some "bin.."
  rangeCheck := some " Off "

/-- Only the last dot of a name begins an extension, and the first one of a hidden file begins none. -/
theorem ofEnvironment_usable_looseEnvironment :
    let s := ofEnvironment looseEnvironment
    let a := Assembler.start s
    s = { variableBase := 1024, outputSuffix := ".bin..", rangeCheck := false } ∧
      (∃ out, a.outputPath (some (.ofText "lib//prog.tar.asm")) = .ok out ∧ out.root = "" ∧
        out.names.dropLast = ["lib"] ∧ out.name? = some "prog.tar.bin..") ∧
      ∃ out, a.outputPath (some (.ofText "/.profile")) = .ok out ∧ out.root = "/" ∧
        out.names.dropLast = [] ∧ out.name? = some ".profile.bin.." := by
  intro s a
  have hs : s = { variableBase := 1024, outputSuffix := ".bin..", rangeCheck := false } := by
    decide +kernel
  have hnested : (Path.ofText "lib//prog.tar.asm").name? = some "prog.tar.asm" := by decide
  have hhidden : (Path.ofText "/.profile").name? = some ".profile" := by decide
  obtain ⟨-, -, houtput⟩ := ofEnvironment_usable looseEnvironment
  obtain ⟨out, hout, -, hbeside⟩ := houtput a _ _ rfl hnested
  obtain ⟨other, hother, -, haside⟩ := houtput a _ _ rfl hhidden
  rw [show a.settings = s from rfl, hs] at hbeside haside
  have hstem : Path.stem ".profile" = ".profile" := by decide
  refine ⟨hs, ⟨out, hout, hbeside.root_eq, hbeside.folder_eq, ?_⟩,
    other, hother, haside.root_eq, haside.folder_eq, ?_⟩
  · exact hbeside.extended _ "prog.tar" "asm" hnested ⟨rfl, by decide, by decide, by decide⟩
  · exact haside.unextended _ hhidden (Path.stem_eq_self_iff.1 hstem)

end Settings

end HackToolchain
