import Mathlib.Logic.Basic
import Mathlib.Tactic.SplitIfs
import Provision.FileTree
import Provision.Proofs.Failure

namespace Provision.FileTree

open Provision.Text

variable {t : FileTree} {place folder steps above : List String} {path name last : String} {e : Entry}

theorem lookup_filter_ne {entries : List (List String × Entry)} (h : steps ≠ place) :
    (entries.filter fun (names, _) => names != place).lookup steps = entries.lookup steps := by
  induction entries with
  | nil => rfl
  | cons entry entries ih =>
    obtain ⟨key, e⟩ := entry
    by_cases hkey : steps = key
    · subst hkey
      simp [h]
    · rw [List.lookup_cons, beq_eq_false_iff_ne.mpr hkey]
      by_cases hplace : key = place
      · rw [List.filter_cons_of_neg (by simpa using hplace)]
        exact ih
      · rw [List.filter_cons_of_pos (by simpa using hplace), List.lookup_cons,
          beq_eq_false_iff_ne.mpr hkey]
        exact ih

theorem entry?_set_of_ne (h : steps ≠ place) :
    FileTree.entry? (t.set place e) steps = t.entry? steps := by
  unfold entry? set
  refine if_congr Iff.rfl rfl ?_
  rw [List.lookup_cons, beq_eq_false_iff_ne.mpr h]
  exact lookup_filter_ne h

theorem entry?_set_self (h : place ≠ []) : FileTree.entry? (t.set place e) place = some e := by
  unfold entry? set
  simp [h]

theorem entry?_set_ne_none (h : t.entry? steps ≠ none) :
    FileTree.entry? (t.set place e) steps ≠ none := by
  by_cases hplace : steps = place
  · subst hplace
    by_cases hnil : steps = []
    · subst hnil
      exact h
    · rw [entry?_set_self hnil]
      exact Option.some_ne_none e
  · rwa [entry?_set_of_ne hplace]

/-! ### Walks -/

theorem walk_cons (hplace : t.entry? place = some .folder) : t.walk place (name :: steps) =
    if name = "" ∨ name = "." then t.walk place steps
    else if name = ".." then t.walk place.dropLast steps
    else if longestName < nameSize name then throw .nameTooLong
    else if (t.entry? (place ++ [name])).isNone then throw .absent
    else t.walk (place ++ [name]) steps := by
  rw [walk, hplace]

theorem folder_of_walk (h : t.walk place (name :: steps) = .ok folder) :
    t.entry? place = some .folder := by
  unfold walk at h
  split at h
  · cases h
  · cases h
  · assumption

theorem walk_append {more : List String} (h : t.walk place steps = .ok folder) :
    t.walk place (steps ++ more) = t.walk folder more := by
  induction steps generalizing place with
  | nil =>
    cases h
    rfl
  | cons name steps ih =>
    have hplace := folder_of_walk h
    rw [walk_cons hplace] at h
    rw [List.cons_append, walk_cons hplace]
    split_ifs at h ⊢
    · exact ih h
    · exact ih h
    · exact ih h

/-- A walk through folders is the same where something else than a folder is set anew. -/
theorem walk_set {start : List String} (hplace : t.entry? place ≠ some .folder)
    (h : t.walk start steps = .ok folder) : (t.set place e).walk start steps = .ok folder := by
  induction steps generalizing start with
  | nil => exact h
  | cons name steps ih =>
    have hstart := folder_of_walk h
    -- Every step begins in a folder, which is not the place that is set.
    have hne : start ≠ place := fun heq => hplace (heq ▸ hstart)
    rw [walk_cons hstart] at h
    rw [walk_cons ((entry?_set_of_ne hne).trans hstart)]
    split_ifs at h with hsame habove hlong hthere
    · rw [if_pos hsame]
      exact ih h
    · rw [if_neg hsame, if_pos habove]
      exact ih h
    · have hset : FileTree.entry? (t.set place e) (start ++ [name]) ≠ none :=
        entry?_set_ne_none (mt Option.isNone_iff_eq_none.mpr hthere)
      rw [if_neg hsame, if_neg habove, if_neg hlong, if_neg (mt Option.isNone_iff_eq_none.mp hset)]
      exact ih h

/-! ### Files -/

theorem names_of_lastName (h : lastName path = (above, last, false)) :
    names path = above ++ [last] := by
  unfold lastName at h
  dsimp only at h
  split at h
  case h_1 => cases h
  case h_2 name folder hdrop =>
    obtain ⟨rfl, rfl, hend⟩ : folder.reverse = above ∧ name = last ∧
        (names path).reverse.head?.any (·.isEmpty) = false := by simpa only [Prod.mk.injEq] using h
    -- No slash stands at the end, so no name is dropped there.
    have hkept : (names path).reverse.dropWhile (·.isEmpty) = (names path).reverse := by
      generalize (names path).reverse = reversed at hend
      cases reversed with
      | nil => rfl
      | cons name reversed => exact List.dropWhile_cons_of_neg (by simpa using hend)
    rw [hkept] at hdrop
    rw [← List.reverse_cons, ← hdrop, List.reverse_reverse]

/-- A path to be written leads to a name in a folder, where no other folder is. -/
structure Targets (t : FileTree) (spelled : String) (above : List String) (last : String)
    (folder : List String) : Prop where
  lastName : lastName spelled = (above, last, false)
  walk : t.walk (t.start spelled) above = .ok folder
  isFolder : t.entry? folder = some .folder
  proper : ¬(last = "" ∨ last = ".") ∧ last ≠ ".."
  short : ¬longestName < nameSize last
  free : t.entry? (folder ++ [last]) ≠ some .folder

theorem targets_of_target (h : t.target path = .ok place) : ∃ spelled above last folder,
    checkPath path = .ok spelled ∧ t.Targets spelled above last folder ∧ place = folder ++ [last] := by
  obtain ⟨spelled, hpath, hrest⟩ := bind_eq_ok_iff.mp h
  rcases hname : lastName spelled with ⟨above, last, endsInSlash⟩
  simp only [hname] at hrest
  obtain ⟨folder, hwalk, hend⟩ := bind_eq_ok_iff.mp hrest
  clear h hrest
  split at hend
  case h_1 | h_2 => cases hend
  case h_3 hfolder =>
    split_ifs at hend with hlast hlong
    simp only [not_or, Bool.not_eq_true] at hlast
    obtain ⟨hempty, hdot, hdots, rfl⟩ := hlast
    split at hend
    case h_1 => cases hend
    case h_2 hfree =>
      obtain rfl : folder ++ [last] = place := Except.ok.inj hend
      have hproper : ¬(last = "" ∨ last = ".") ∧ last ≠ ".." := ⟨not_or.mpr ⟨hempty, hdot⟩, hdots⟩
      exact ⟨spelled, above, last, folder, hpath, ⟨hname, hwalk, hfolder, hproper, hlong, hfree⟩, rfl⟩

theorem target_of_targets (hpath : checkPath path = .ok name) (h : t.Targets name above last folder) :
    t.target path = .ok (folder ++ [last]) := by
  have hlast : ¬(last = "" ∨ last = "." ∨ last = ".." ∨ false = true) := by
    simpa [and_assoc] using h.proper
  refine bind_eq_ok_iff.mpr ⟨name, hpath, ?_⟩
  simp only [h.lastName]
  refine bind_eq_ok_iff.mpr ⟨folder, h.walk, ?_⟩
  rw [h.isFolder]
  dsimp only
  rw [if_neg hlast, if_neg h.short]
  split
  case h_1 hfolder => exact absurd hfolder h.free
  case h_2 => rfl

theorem Targets.set (h : t.Targets name above last folder) (content : ByteArray) :
    (t.set (folder ++ [last]) (.file content)).Targets name above last folder where
  lastName := h.lastName
  walk := walk_set h.free h.walk
  isFolder := (entry?_set_of_ne (by simp)).trans h.isFolder
  proper := h.proper
  short := h.short
  free := by
    rw [entry?_set_self (List.concat_ne_nil last folder)]
    nofun

theorem read_of_locate {content : ByteArray} (h : t.locate path = .ok place)
    (hfile : t.entry? place = some (.file content)) : t.read path = .ok content := by
  rw [read, h]
  dsimp only [bind, Except.bind]
  rw [hfile]
  rfl

/-- What is written is read again, and can be written over. -/
theorem read_write (content : ByteArray) (h : t.target path = .ok place) :
    ∃ t', t.write path content = .ok t' ∧ t'.read path = .ok content ∧ t'.target path = .ok place := by
  obtain ⟨spelled, above, last, folder, hpath, ht, rfl⟩ := targets_of_target h
  have hset := ht.set content
  have hfile := entry?_set_self (t := t) (e := .file content) (List.concat_ne_nil last folder)
  have hlocate : (t.set (folder ++ [last]) (.file content)).locate path = .ok (folder ++ [last]) := by
    rw [locate, hpath]
    change FileTree.walk _ (FileTree.start (t.set _ _) spelled) (FileTree.names spelled) = _
    rw [names_of_lastName hset.lastName, walk_append hset.walk, walk_cons hset.isFolder,
      if_neg hset.proper.1, if_neg hset.proper.2, if_neg hset.short, if_neg]
    · rfl
    · rw [hfile]
      nofun
  exact ⟨t.set (folder ++ [last]) (.file content), by rw [write, h]; rfl, read_of_locate hlocate hfile,
    target_of_targets hpath hset⟩

end Provision.FileTree
