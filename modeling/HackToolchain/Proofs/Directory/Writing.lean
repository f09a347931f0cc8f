import HackToolchain.Directory

/-!
# Written files

What is written to a path can be read from it. Writing follows the path up to its last name and puts
a file there, which is no folder on the way; so a reader who follows the same path passes the same
folders and finds the file.
-/

namespace HackToolchain

variable {d written : Directory} {p q place : Place} {n : Node} {path part text : String}
variable {parts : List String} {cs : List Char}

/-! ### The parts of a path -/

/-- A path that does not end with a slash ends with a name. -/
theorem exists_splitSlash_eq (hne : cs ≠ []) (hlast : cs.getLast? ≠ some '/') :
    ∃ front last, splitSlash cs = front ++ [last] ∧ last ≠ [] := by
  induction cs with
  | nil => exact absurd rfl hne
  | cons c cs ih =>
    cases cs with
    | nil =>
      have hc : c ≠ '/' := by
        rintro rfl
        exact hlast rfl
      exact ⟨[], [c], by simp [splitSlash, hc], by simp⟩
    | cons c' cs =>
      obtain ⟨front, last, hsplit, hname⟩ := ih (by simp) (by simpa using hlast)
      rw [splitSlash]
      by_cases hc : c = '/'
      · exact ⟨[] :: front, last, by simp [hc, hsplit], hname⟩
      · rw [if_neg hc, hsplit]
        cases front with
        | nil => exact ⟨[], c :: last, rfl, by simp⟩
        | cons part front => exact ⟨(c :: part) :: front, last, rfl, hname⟩

namespace Directory

theorem ne_empty_of_checkPath (h : checkPath path = .ok ()) : path.toList ≠ [] := by
  intro hpath
  rw [checkPath] at h
  split at h
  · simp at h
  · simp [String.toList_eq_nil_iff.1 hpath] at h

theorem exists_partsOf_eq (hpath : checkPath path = .ok ())
    (hlast : path.toList.getLast? ≠ some '/') :
    ∃ front last, partsOf path = front ++ [last] ∧ last ≠ "" := by
  obtain ⟨front, last, hsplit, hname⟩ := exists_splitSlash_eq (ne_empty_of_checkPath hpath) hlast
  refine ⟨front.map String.ofList, String.ofList last, by simp [partsOf, hsplit], ?_⟩
  intro hempty
  exact hname (String.ofList_inj.1 hempty)

/-! ### Nodes -/

theorem lookup_replace_of_ne {nodes : List (Place × Node)} (h : p ≠ place) :
    (nodes.map fun entry => if entry.1 == place then (place, n) else entry).lookup p =
      nodes.lookup p := by
  induction nodes with
  | nil => rfl
  | cons entry entries ih =>
    obtain ⟨key, value⟩ := entry
    rw [List.map_cons, List.lookup_cons, List.lookup_cons, ih]
    by_cases hkey : key = place
    · have hp : (p == place) = false := by simpa using h
      simp [hkey, hp]
    · simp [hkey]

theorem lookup_replace_self {nodes : List (Place × Node)}
    (h : nodes.any (·.1 == place) = true) :
    (nodes.map fun entry => if entry.1 == place then (place, n) else entry).lookup place =
      some n := by
  induction nodes with
  | nil => simp at h
  | cons entry entries ih =>
    obtain ⟨key, value⟩ := entry
    rw [List.map_cons]
    by_cases hkey : key = place
    · simp [hkey]
    · have hplace : (place == key) = false := by simpa using Ne.symm hkey
      rw [List.any_cons, Bool.or_eq_true, beq_iff_eq] at h
      simpa [hkey, List.lookup_cons, hplace] using ih (h.resolve_left hkey)

theorem node?_put_of_ne (h : p ≠ place) : (d.put place n).node? p = d.node? p := by
  have hlookup : (d.put place n).nodes.lookup p = d.nodes.lookup p := by
    rw [put]
    split
    · exact lookup_replace_of_ne h
    · have hp : (p == place) = false := by simpa using h
      simp [List.lookup_append, List.lookup_cons, hp]
  simp only [node?, hlookup]

/-- A node that does not stand outside the directory stands where it is put. -/
theorem node?_put_self (h : place.isOutside = false) : (d.put place n).node? place = some n := by
  have hlookup : (d.put place n).nodes.lookup place = some n := by
    rw [put]
    split
    case isTrue hany => exact lookup_replace_self hany
    case isFalse hany =>
      have hnone : d.nodes.lookup place = none := by
        rw [List.lookup_eq_none_iff]
        intro entry hentry
        simp only [List.any_eq_true, not_exists, not_and] at hany
        simpa [BEq.comm] using hany entry hentry
      simp [List.lookup_append, hnone]
  rw [node?, h, hlookup]
  simp

/-! ### Ways -/

/-- A computation in two steps succeeds when both do. -/
theorem bind_eq_ok_iff {ε α β : Type} {x : Except ε α} {f : α → Except ε β} {b : β} :
    (x >>= f) = .ok b ↔ ∃ a, x = .ok a ∧ f a = .ok b := by
  cases x <;> simp [bind, Except.bind]

theorem requireFolder_eq_ok_iff : d.requireFolder path p = .ok () ↔ d.node? p = some .folder := by
  rw [requireFolder]
  cases d.node? p with
  | none => simp
  | some node => cases node <;> simp

theorem enter_eq_ok_iff : d.enter path p part = .ok q ↔
    d.node? p = some .folder ∧ step path p part = .ok q := by
  rw [enter, bind_eq_ok_iff, ← @requireFolder_eq_ok_iff d p path]
  constructor
  · rintro ⟨_, hfolder, hstep⟩
    exact ⟨hfolder, hstep⟩
  · rintro ⟨hfolder, hstep⟩
    exact ⟨(), hfolder, hstep⟩

theorem foldlM_cons_eq_ok_iff : (part :: parts).foldlM (d.enter path) p = .ok q ↔
    ∃ r, d.enter path p part = .ok r ∧ parts.foldlM (d.enter path) r = .ok q := by
  rw [List.foldlM_cons, bind_eq_ok_iff]

/-- A way that ends at a folder starts at one. -/
theorem node?_of_foldlM (h : parts.foldlM (d.enter path) p = .ok q)
    (hq : d.node? q = some .folder) : d.node? p = some .folder := by
  cases parts with
  | nil =>
    obtain rfl : p = q := by simpa [pure, Except.pure] using h
    exact hq
  | cons part parts =>
    obtain ⟨r, hr, -⟩ := foldlM_cons_eq_ok_iff.1 h
    exact (enter_eq_ok_iff.1 hr).1

/-- Empty parts do not lead away from a folder. -/
theorem foldlM_of_filter (h : (parts.filter (· ≠ "")).foldlM (d.enter path) p = .ok q)
    (hq : d.node? q = some .folder) : parts.foldlM (d.enter path) p = .ok q := by
  induction parts generalizing p with
  | nil => exact h
  | cons part parts ih =>
    by_cases hpart : part = ""
    · subst hpart
      rw [List.filter_cons_of_neg (by simp)] at h
      have hp := node?_of_foldlM h hq
      exact foldlM_cons_eq_ok_iff.2 ⟨p, enter_eq_ok_iff.2 ⟨hp, by simp [step]⟩, ih h⟩
    · rw [List.filter_cons_of_pos (by simpa using hpart)] at h
      obtain ⟨r, hr, hrest⟩ := foldlM_cons_eq_ok_iff.1 h
      exact foldlM_cons_eq_ok_iff.2 ⟨r, hr, ih hrest⟩

/-- A node that is put where no folder stands is on no way. -/
theorem foldlM_put (hplace : d.node? place ≠ some .folder)
    (h : parts.foldlM (d.enter path) p = .ok q) :
    parts.foldlM ((d.put place n).enter path) p = .ok q := by
  induction parts generalizing p with
  | nil => exact h
  | cons part parts ih =>
    obtain ⟨r, hr, hrest⟩ := foldlM_cons_eq_ok_iff.1 h
    obtain ⟨hfolder, hstep⟩ := enter_eq_ok_iff.1 hr
    have hne : p ≠ place := by
      rintro rfl
      exact hplace hfolder
    refine foldlM_cons_eq_ok_iff.2 ⟨r, enter_eq_ok_iff.2 ⟨?_, hstep⟩, ih hrest⟩
    rw [node?_put_of_ne hne, hfolder]

/-! ### Writing and reading -/

/-- A file is written behind the folder that all parts of its path but the last one lead to, where no
folder stands. -/
theorem target_eq_ok_iff : d.target path = .ok place ↔
    checkPath path = .ok () ∧ path.toList.getLast? ≠ some '/' ∧ ∃ folder,
      ((partsOf path).filter (· ≠ "")).dropLast.foldlM (d.enter path) (startOf path) = .ok folder ∧
      d.node? folder = some .folder ∧
      step path folder (((partsOf path).filter (· ≠ "")).getLast?.getD "") = .ok place ∧
      d.node? place ≠ some .folder := by
  rw [target, bind_eq_ok_iff]
  simp only [bind_eq_ok_iff]
  constructor
  · rintro ⟨⟨⟩, hpath, folder, hway, ⟨⟩, hrequire, h⟩
    split at h
    · simp at h
    case isFalse hlast =>
      obtain ⟨q, hstep, hq⟩ := bind_eq_ok_iff.1 h
      split at hq
      · simp at hq
      case h_2 hplace =>
        obtain rfl := Except.ok.inj hq
        exact ⟨hpath, hlast, folder, hway, requireFolder_eq_ok_iff.1 hrequire, hstep, hplace⟩
  · rintro ⟨hpath, hlast, folder, hway, hfolder, hstep, hplace⟩
    refine ⟨(), hpath, folder, hway, (), requireFolder_eq_ok_iff.2 hfolder, ?_⟩
    rw [if_neg hlast]
    refine bind_eq_ok_iff.2 ⟨place, hstep, ?_⟩
    split
    case h_1 hnode => exact absurd hnode hplace
    case h_2 => rfl

/-- Writing leads through folders to the last name of a path, at whose place no folder stands. -/
theorem exists_of_target (h : d.target path = .ok place) : ∃ front last folder,
    checkPath path = .ok () ∧ partsOf path = front ++ [last] ∧
      front.foldlM (d.enter path) (startOf path) = .ok folder ∧
      d.node? folder = some .folder ∧ step path folder last = .ok place ∧
      d.node? place ≠ some .folder := by
  obtain ⟨hpath, hlast, folder, hway, hfolder, hstep, hplace⟩ := target_eq_ok_iff.1 h
  obtain ⟨front, last, hparts, hname⟩ := exists_partsOf_eq hpath hlast
  have hnames : (partsOf path).filter (· ≠ "") = front.filter (· ≠ "") ++ [last] := by
    simp [hparts, hname]
  rw [hnames, List.dropLast_concat] at hway
  rw [hnames, List.getLast?_concat, Option.getD_some] at hstep
  exact ⟨front, last, folder, hpath, hparts, foldlM_of_filter hway hfolder, hfolder, hstep, hplace⟩

/-- A path leads to the place at which it is written. -/
theorem resolve_of_target (h : d.target path = .ok place) : d.resolve path = .ok place := by
  obtain ⟨front, last, folder, hpath, hparts, hfront, hfolder, hstep, -⟩ := exists_of_target h
  have hlast : d.enter path folder last = .ok place := enter_eq_ok_iff.2 ⟨hfolder, hstep⟩
  rw [resolve, hpath, hparts, List.foldlM_append, hfront]
  simp only [bind, Except.bind, List.foldlM_cons, List.foldlM_nil, hlast]
  rfl

/-- A path leads to the place at which it is written, once a file has been put there. -/
theorem resolve_put_target (h : d.target path = .ok place) :
    (d.put place n).resolve path = .ok place := by
  obtain ⟨front, last, folder, hpath, hparts, hfront, hfolder, hstep, hplace⟩ := exists_of_target h
  have hne : folder ≠ place := by
    rintro rfl
    exact hplace hfolder
  have hlast : (d.put place n).enter path folder last = .ok place :=
    enter_eq_ok_iff.2 ⟨by rw [node?_put_of_ne hne, hfolder], hstep⟩
  have hway := foldlM_put (n := n) hplace hfront
  rw [resolve, hpath, hparts, List.foldlM_append, hway]
  simp only [bind, Except.bind, List.foldlM_cons, List.foldlM_nil, hlast]
  rfl

theorem exists_target_of_write (h : d.write path text = .ok written) :
    ∃ place, d.target path = .ok place ∧ written = d.put place (.file (Text.Utf8.encode text)) := by
  rw [write, bind_eq_ok_iff] at h
  obtain ⟨place, htarget, h⟩ := h
  exact ⟨place, htarget, (Except.ok.inj h).symm⟩

/-- A place at which a file is written stands in the directory. -/
theorem isOutside_of_target (h : d.target path = .ok place) : place.isOutside = false := by
  obtain ⟨-, -, -, -, -, -, hplace⟩ := target_eq_ok_iff.1 h
  rw [Bool.eq_false_iff]
  intro houtside
  exact hplace (by rw [node?, if_pos houtside])

/-- What is written to a path is read from it. -/
theorem read_write (h : d.write path text = .ok written) :
    written.read path = .ok (Text.Utf8.encode text) := by
  obtain ⟨place, htarget, rfl⟩ := exists_target_of_write h
  rw [read, find, resolve_put_target htarget]
  simp only [bind, Except.bind, node?_put_self (isOutside_of_target htarget)]

/-! ### What writing leaves alone -/

/-- Folders stand at the same places. -/
def SameFolders (d d' : Directory) : Prop :=
  ∀ p, d'.node? p = some .folder ↔ d.node? p = some .folder

/-- Nothing stands otherwise but at the places at which some paths are written. -/
def ChangedAt (d d' : Directory) (paths : List String) : Prop :=
  ∀ p, d'.node? p ≠ d.node? p → ∃ path ∈ paths, d.target path = .ok p

theorem SameFolders.refl (d : Directory) : d.SameFolders d :=
  fun _ => Iff.rfl

theorem SameFolders.trans {d' d'' : Directory} (h : d.SameFolders d') (h' : d'.SameFolders d'') :
    d.SameFolders d'' :=
  fun p => (h' p).trans (h p)

theorem ChangedAt.refl (d : Directory) (paths : List String) : d.ChangedAt d paths :=
  fun _ hp => absurd rfl hp

namespace SameFolders

variable {d' : Directory}

theorem enter_eq_ok_iff (h : d.SameFolders d') :
    d'.enter path p part = .ok q ↔ d.enter path p part = .ok q := by
  rw [Directory.enter_eq_ok_iff, Directory.enter_eq_ok_iff, h p]

theorem foldlM_eq_ok_iff (h : d.SameFolders d') :
    parts.foldlM (d'.enter path) p = .ok q ↔ parts.foldlM (d.enter path) p = .ok q := by
  induction parts generalizing p with
  | nil => rfl
  | cons part parts ih => simp only [foldlM_cons_eq_ok_iff, h.enter_eq_ok_iff, ih]

/-- Where a path is written depends on the folders only. -/
theorem target_eq_ok_iff (h : d.SameFolders d') :
    d'.target path = .ok place ↔ d.target path = .ok place := by
  simp only [Directory.target_eq_ok_iff, h.foldlM_eq_ok_iff, ne_eq, h _]

end SameFolders

/-- What is changed in two steps is changed in one of them. -/
theorem ChangedAt.trans {d' d'' : Directory} {paths paths' : List String}
    (h : d.ChangedAt d' paths) (hfolders : d.SameFolders d') (h' : d'.ChangedAt d'' paths') :
    d.ChangedAt d'' (paths ++ paths') := by
  intro p hp
  by_cases hfirst : d'.node? p = d.node? p
  · obtain ⟨path, hmem, htarget⟩ := h' p (by rwa [hfirst])
    exact ⟨path, List.mem_append_right _ hmem, hfolders.target_eq_ok_iff.1 htarget⟩
  · obtain ⟨path, hmem, htarget⟩ := h p hfirst
    exact ⟨path, List.mem_append_left _ hmem, htarget⟩

/-- Writing makes and removes no folder. -/
theorem sameFolders_write (h : d.write path text = .ok written) : d.SameFolders written := by
  obtain ⟨place, htarget, rfl⟩ := exists_target_of_write h
  obtain ⟨-, -, -, -, -, -, hplace⟩ := target_eq_ok_iff.1 htarget
  intro p
  by_cases hp : p = place
  · subst hp
    simp [node?_put_self (isOutside_of_target htarget), hplace]
  · rw [node?_put_of_ne hp]

/-- Writing changes nothing but the file that is written. -/
theorem changedAt_write (h : d.write path text = .ok written) : d.ChangedAt written [path] := by
  obtain ⟨place, htarget, rfl⟩ := exists_target_of_write h
  intro p hp
  refine ⟨path, List.mem_singleton_self path, ?_⟩
  rw [htarget, Classical.not_not.1 fun hne : ¬ p = place => hp (node?_put_of_ne hne)]

end Directory

end HackToolchain
