import HackToolchain.Proofs.Disassembly.RunVariables
import HackToolchain.Proofs.Disassembly.Sequence
import HackToolchain.Proofs.Program.WordFormat

/-!
# Words with the names of their variables

The words of a run are disassembled with its variables as names. If addresses are held below 32768,
every word is decoded. A variable is shown by its name, since no other variable has its address. A
literal, a predefined symbol or a label is shown by its number, unless it has the address of a
variable; the word does not tell them apart, and the name of this variable is shown. A compute
instruction is shown as it is without any names.
-/

namespace HackToolchain

open Denotation Disassembly

variable {settings : Settings} {program statements : List Statement} {s : Statement}
variable {words : List Word} {w : Word} {name : String} {v : Symbol} {a : Int}

/-! ### The variables of a run -/

namespace Denotation

/-- An operand that is bound as a variable has its address. -/
theorem addressOf_of_mem_ofKind (h : (generate settings program).result = .ok words)
    (hv : v ∈ (generate settings program).program.symbols.ofKind (some .var)) :
    addressOf settings program v.name = v.address := by
  rw [ofKind_var_of_result h] at hv
  obtain ⟨name, hname, rfl⟩ := List.mem_map.1 hv
  exact addressOf_of_isVariable (mem_usedVariables_iff.1 hname).2

/-- A variable of a run is the only one with its address. -/
theorem lookup_variableMap_of_mem_ofKind (h : (generate settings program).result = .ok words)
    (hv : v ∈ (generate settings program).program.symbols.ofKind (some .var)) :
    (generate settings program).program.variableMap.lookup v.address = some v.name := by
  rw [ofKind_var_of_result h] at hv
  obtain ⟨name, hname, rfl⟩ := List.mem_map.1 hv
  exact (lookup_variableMap_iff h).2 ⟨hname, rfl⟩

/-- An address that no variable of a run has gets no name. -/
theorem lookup_variableMap_eq_none (h : (generate settings program).result = .ok words)
    (hother : ∀ v ∈ (generate settings program).program.symbols.ofKind (some .var),
      v.address ≠ a) :
    (generate settings program).program.variableMap.lookup a = none := by
  rw [ofKind_var_of_result h] at hother
  apply Option.eq_none_iff_forall_ne_some.2
  intro name hlookup
  obtain ⟨hname, haddress⟩ := (lookup_variableMap_iff h).1 hlookup
  exact hother _ (List.mem_map_of_mem hname) haddress

/-- The addresses of the variables of a run are distinct. -/
theorem nodup_variableMap (h : (generate settings program).result = .ok words) :
    ((generate settings program).program.variableMap.map Prod.fst).Nodup := by
  rw [variableMap_of_result h, List.map_map]
  exact (nodup_eraseDups _).map_on fun _ hname _ _ => eq_of_variableAddress_eq hname

end Denotation

/-! ### The word of one instruction -/

namespace Disassembly

/-- An entry shows an address: by the name of the variable that has it, or else as a number. -/
structure ShowsAddress (vars : List Symbol) (address : Int) (e : Entry) : Prop where
  named : ∀ v ∈ vars, v.address = address → e.text = "@" ++ v.name ∧ e.comment = toString address
  numbered : (∀ v ∈ vars, v.address ≠ address) →
    e.text = "@" ++ toString address ∧ e.comment = ""

/-- An entry shows an instruction of a program, the variables being those that its run has bound. An
operand that is one of them is shown as it is, any other one by its address, and a compute
instruction as without names. -/
structure ShownFaithfully (settings : Settings) (program : List Statement) (vars : List Symbol)
    (s : Statement) (e : Entry) : Prop where
  bound : ∀ v ∈ vars, s.command = .addressLoad v.name →
    e.text = "@" ++ v.name ∧ e.comment = toString v.address
  loaded : ∀ operand, s.command = .addressLoad operand →
    Word.ofAddress (addressOf settings program operand) settings.limit = .ok e.word ∧
      ShowsAddress vars (addressOf settings program operand) e
  computed : ∀ fields, s.command = .compute fields → decodeWord [] e.word e.address = .ok e

/-- The word of an address is decoded with the variables of a run as names, and shows the address. -/
theorem exists_showsAddress {n : Nat} (h : (generate settings program).result = .ok words)
    (hsmall : n ≤ 32767) (address : Int) :
    ∃ e, decodeWord (generate settings program).program.variableMap (Word.ofNat n) address = .ok e ∧
      e.word = Word.ofNat n ∧
      ShowsAddress ((generate settings program).program.symbols.ofKind (some .var)) n e := by
  by_cases hnamed : ∃ v ∈ (generate settings program).program.symbols.ofKind (some .var),
      v.address = n
  · obtain ⟨v, hv, hvariable⟩ := hnamed
    have hlookup := lookup_variableMap_of_mem_ofKind h hv
    refine ⟨_, decodeWord_ofNat_of_named hsmall (hvariable ▸ hlookup) address, rfl, ?_, ?_⟩
    · -- Another variable with this address is the same.
      intro u hu hsame
      have hother := lookup_variableMap_of_mem_ofKind h hu
      rw [hsame, ← hvariable, hlookup] at hother
      exact ⟨congrArg ("@" ++ ·) (Option.some.inj hother), rfl⟩
    · intro hnone
      exact absurd hvariable (hnone v hv)
  · have hnone : ∀ v ∈ (generate settings program).program.symbols.ofKind (some .var),
        v.address ≠ n := fun v hv hvariable => hnamed ⟨v, hv, hvariable⟩
    refine ⟨_, decodeWord_ofNat_of_unnamed hsmall (lookup_variableMap_eq_none h hnone) address, rfl,
      ?_, fun _ => ⟨rfl, rfl⟩⟩
    intro v hv hvariable
    exact absurd hvariable (hnone v hv)

/-- The word of an instruction is decoded with the variables as names, and shows the instruction. -/
theorem exists_shownFaithfully (h : (generate settings program).result = .ok words)
    (hlimit : Word.addressLimit settings.limit ≤ 32767)
    (hword : word? settings program s = some (.ok w)) (address : Int) :
    ∃ e, decodeWord (generate settings program).program.variableMap w address = .ok e ∧
      ShownFaithfully settings program
        ((generate settings program).program.symbols.ofKind (some .var)) s e := by
  rcases word?_eq_some_iff.1 hword with ⟨operand, hs, hencoded⟩ | ⟨fields, hs, hencoded⟩
  · obtain ⟨⟨hlow, hhigh⟩, rfl⟩ := Word.ofAddress_eq_ok_iff.1 hencoded
    obtain ⟨n, hn⟩ := Int.eq_ofNat_of_zero_le hlow
    obtain ⟨e, hdecoded, hsame, hshows⟩ := exists_showsAddress h (by omega : n ≤ 32767) address
    have hvalue : (addressOf settings program operand).toNat = n := by rw [hn, Int.toNat_natCast]
    rw [← hn] at hshows
    refine ⟨e, hvalue.symm ▸ hdecoded, ?_, ?_, ?_⟩
    · intro v hv hload
      obtain rfl := Command.addressLoad.inj (hs.symm.trans hload)
      rw [addressOf_of_mem_ofKind h hv] at hshows
      exact hshows.named v hv rfl
    · intro other hload
      obtain rfl := Command.addressLoad.inj (hs.symm.trans hload)
      refine ⟨?_, hshows⟩
      rw [hsame, hencoded, hvalue]
    · intro fields hcompute
      simp [hs] at hcompute
  · -- The map has no part in how a compute word is decoded.
    refine ⟨_, decodeWord_of_encode hencoded address, ?_, ?_, fun _ _ =>
      decodeWord_of_encode hencoded address⟩
    · intro v _ hload
      simp [hs] at hload
    · intro operand hload
      simp [hs] at hload

end Disassembly

/-! ### The words of a run -/

namespace Generator

/-- The words of a run are disassembled with the variables that it has bound as names, if addresses
are held below 32768. No two variables have the same address, every instruction has its own entry,
and the entries show the instructions. -/
theorem disassemble_variableMap {g : Generator} (h : (g.generate statements).2 = .ok words)
    (hlimit : Word.addressLimit g.settings.limit ≤ 32767) (start : Int) :
    let p := (g.generate statements).1.program
    (p.variableMap.map Prod.fst).Nodup ∧
      ∃ entries, disassemble p.variableMap start none words = .ok entries ∧
        AreEntries p.variableMap start words entries ∧
        List.Forall₂ (ShownFaithfully g.settings statements (p.symbols.ofKind (some .var)))
          (instructions statements) entries := by
  intro p
  obtain ⟨hresult, hprogram⟩ := program_of_result h
  have hwords := forall₂_instructions (generate_of_result hresult).2
  have hselected : selected none words = words := by
    apply selected_of_isWord
    intro w hw
    exact isWord_iff.2 (digits_of_result hresult (Int.le_trans hlimit (by decide)) hw)
  obtain ⟨entries, hentries, hshown⟩ :=
    exists_decodeFrom_of_forall₂ (fun _ _ hword => exists_shownFaithfully hresult hlimit hword)
      hwords start
  rw [show p = (HackToolchain.generate g.settings statements).program from hprogram]
  refine ⟨nodup_variableMap hresult, entries, ?_, areEntries_of_decodeFrom hentries, hshown⟩
  rw [disassemble_eq, hselected, hentries]
  rfl

/-- A generator whose second variable would get the address of the screen. -/
def screenGenerator : Generator :=
  start { Settings.default with variableBase := 16383 }

/-- Variables, a literal with the address of one of them, a label and a predefined symbol. -/
def screenProgram : List Statement :=
  [⟨⟨"a.asm", 1, 1⟩, "@x", .addressLoad "x"⟩,
   ⟨⟨"a.asm", 2, 1⟩, "@16383", .addressLoad "16383"⟩,
   ⟨⟨"a.asm", 3, 1⟩, "@y", .addressLoad "y"⟩,
   ⟨⟨"a.asm", 4, 1⟩, "(LOOP)", .label "LOOP"⟩,
   ⟨⟨"a.asm", 5, 1⟩, "@LOOP", .addressLoad "LOOP"⟩,
   ⟨⟨"a.asm", 6, 1⟩, "@SCREEN", .addressLoad "SCREEN"⟩,
   ⟨⟨"a.asm", 7, 1⟩, "M=D", .compute ⟨some "M", "D", none, 3, 0⟩⟩]

def screenWords : List Word :=
  ["0011111111111111", "0011111111111111", "0100000000000001", "0000000000000011",
   "0100000000000000", "1110001100001000"]

/-- The literal is shown as the variable with its address. -/
theorem disassemble_variableMap_screenProgram :
    let p := (screenGenerator.generate screenProgram).1.program
    (screenGenerator.generate screenProgram).2 = .ok screenWords ∧
      Word.addressLimit screenGenerator.settings.limit ≤ 32767 ∧
      (p.symbols.ofKind (some .var)).map (fun v => (v.name, v.address)) =
        [("x", 16383), ("y", 16385)] ∧
      ∃ entries, disassemble p.variableMap 0 none screenWords = .ok entries ∧
        entries.map (fun e => (e.text, e.comment)) =
          [("@x", "16383"), ("@x", "16383"), ("@y", "16385"), ("@3", ""), ("@16384", ""),
            ("M=D", "")] ∧
        List.Forall₂ (ShownFaithfully screenGenerator.settings screenProgram
          (p.symbols.ofKind (some .var))) (instructions screenProgram) entries := by
  intro p
  have h : (screenGenerator.generate screenProgram).2 = .ok screenWords := by rfl
  have hlimit : Word.addressLimit screenGenerator.settings.limit ≤ 32767 := by decide
  obtain ⟨-, entries, hentries, -, hshown⟩ := disassemble_variableMap h hlimit 0
  refine ⟨h, hlimit, by decide +kernel, entries, hentries, ?_, hshown⟩
  have htexts : (disassemble p.variableMap 0 none screenWords).map
      (fun entries => entries.map fun e => (e.text, e.comment)) =
        .ok [("@x", "16383"), ("@x", "16383"), ("@y", "16385"), ("@3", ""), ("@16384", ""),
          ("M=D", "")] := by decide +kernel
  rw [hentries] at htexts
  exact Except.ok.inj htexts

end Generator

end HackToolchain
