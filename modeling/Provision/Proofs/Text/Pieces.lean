import Mathlib.Data.List.DropRight
import Mathlib.Data.List.TakeWhile
import Provision.Version.Reader

namespace Provision

open Provision.Text

variable {sep c : Char} {cs rest piece before after : List Char} {pieces : List (List Char)}
  {p : Char → Bool}

/-- Where two runs of characters are followed by others, both can be told apart. -/
theorem run_append_inj {p : Char → Bool} {xs ys as bs : List Char} (hx : ∀ c ∈ xs, p c)
    (hy : ∀ c ∈ ys, p c) (ha : ∀ c ∈ as.head?, ¬p c) (hb : ∀ c ∈ bs.head?, ¬p c)
    (h : xs ++ as = ys ++ bs) : xs = ys ∧ as = bs := by
  have hrun {zs cs : List Char} (hz : ∀ c ∈ zs, p c) (hc : ∀ c ∈ cs.head?, ¬p c) :
      (zs ++ cs).takeWhile p = zs := by
    rw [List.takeWhile_append_of_pos hz]
    cases cs with
    | nil => simp
    | cons c cs => simp [List.takeWhile_cons_of_neg (hc c rfl)]
  have hxy : xs = ys := by rw [← hrun hx ha, h, hrun hy hb]
  subst hxy
  exact ⟨rfl, List.append_cancel_left h⟩

namespace Text

theorem splitOnChar_ne_nil (sep : Char) (cs : List Char) : splitOnChar sep cs ≠ [] := by
  cases cs with
  | nil => exact List.cons_ne_nil _ _
  | cons c cs =>
    unfold splitOnChar
    split
    · exact List.cons_ne_nil _ _
    · split <;> exact List.cons_ne_nil _ _

theorem splitOnChar_cons_of_ne (hc : c ≠ sep) (h : splitOnChar sep cs = piece :: pieces) :
    splitOnChar sep (c :: cs) = (c :: piece) :: pieces := by
  rw [splitOnChar, if_neg hc, h]

theorem splitOnChar_append (h : sep ∉ piece) :
    splitOnChar sep (piece ++ sep :: rest) = piece :: splitOnChar sep rest := by
  induction piece with
  | nil => exact if_pos rfl
  | cons c piece ih =>
    obtain ⟨hc, hpiece⟩ := not_or.mp (mt List.mem_cons.mpr h)
    exact splitOnChar_cons_of_ne (Ne.symm hc) (ih hpiece)

theorem splitOnChar_of_not_mem (h : sep ∉ piece) : splitOnChar sep piece = [piece] := by
  induction piece with
  | nil => rfl
  | cons c piece ih =>
    obtain ⟨hc, hpiece⟩ := not_or.mp (mt List.mem_cons.mpr h)
    exact splitOnChar_cons_of_ne (Ne.symm hc) (ih hpiece)

theorem cutAt_of_forall (h : ∀ x ∈ cs, p x = false) : cutAt p cs = (cs, none) := by
  have hdrop : cs.dropWhile (fun x => !p x) = [] :=
    List.dropWhile_eq_nil_iff.mpr fun x hx => Bool.not_eq_eq_eq_not.mpr (h x hx)
  rw [cutAt, hdrop]

theorem cutAt_append (h : ∀ x ∈ piece, p x = false) (hc : p c) :
    cutAt p (piece ++ c :: rest) = (piece, some rest) := by
  have hpiece : ∀ x ∈ piece, (!p x) = true := fun x hx => Bool.not_eq_eq_eq_not.mpr (h x hx)
  rw [cutAt, List.dropWhile_append_of_pos hpiece, List.takeWhile_append_of_pos hpiece]
  simp [hc]

theorem eq_append_of_cutAt (h : cutAt p cs = (before, some after)) :
    ∃ c, p c ∧ cs = before ++ c :: after ∧ ∀ x ∈ before, p x = false := by
  unfold cutAt at h
  split at h
  case h_1 => cases h
  case h_2 c rest hrest =>
    cases h
    have hhead := List.head_dropWhile_not (p := fun x => !p x) (l := cs) (by simp [hrest])
    refine ⟨c, by simpa [hrest] using hhead, ?_, fun x hx => ?_⟩
    · rw [← hrest, List.takeWhile_append_dropWhile]
    · simpa using List.mem_takeWhile_imp hx

theorem cutAtLast_of_forall (h : ∀ x ∈ cs, p x = false) : cutAtLast p cs = none := by
  rw [cutAtLast, cutAt_of_forall fun x hx => h x (List.mem_reverse.mp hx)]

theorem cutAtLast_append (hc : p c) (h : ∀ x ∈ rest, p x = false) :
    cutAtLast p (piece ++ c :: rest) = some (piece, rest) := by
  have hreverse : (piece ++ c :: rest).reverse = rest.reverse ++ c :: piece.reverse := by simp
  rw [cutAtLast, hreverse, cutAt_append (fun x hx => h x (List.mem_reverse.mp hx)) hc]
  simp

theorem dropEndWhile_of_getLast? (h : ∀ c ∈ cs.getLast?, p c = false) :
    dropEndWhile p cs = cs := by
  have hreverse : cs.reverse.dropWhile p = cs.reverse := by
    cases hcs : cs.reverse with
    | nil => rfl
    | cons c rest =>
      have hlast : c ∈ cs.getLast? := by
        rw [← List.head?_reverse, hcs]
        rfl
      exact List.dropWhile_cons_of_neg (Bool.eq_false_iff.mp (h c hlast))
  rw [dropEndWhile, hreverse, List.reverse_reverse]

theorem trim_eq_self (hhead : ∀ c ∈ cs.head?, isBlank c = false)
    (hlast : ∀ c ∈ cs.getLast?, isBlank c = false) : trim cs = cs := by
  have hfront : cs.dropWhile isBlank = cs := by
    cases cs with
    | nil => rfl
    | cons c cs => exact List.dropWhile_cons_of_neg (Bool.eq_false_iff.mp (hhead c rfl))
  rw [trim, trimWhile, hfront, dropEndWhile_of_getLast? hlast]

theorem dropEndWhile_eq_rdropWhile (p : Char → Bool) (cs : List Char) :
    dropEndWhile p cs = cs.rdropWhile p := rfl

theorem trim_eq_nil_iff : trim cs = [] ↔ ∀ c ∈ cs, isBlank c := by
  rw [trim, trimWhile, dropEndWhile_eq_rdropWhile, List.rdropWhile_eq_nil_iff]
  constructor
  · intro h c hc
    rw [← List.takeWhile_append_dropWhile (p := isBlank) (l := cs)] at hc
    obtain hc | hc := List.mem_append.mp hc
    · exact List.mem_takeWhile_imp hc
    · exact h c hc
  · exact fun h c hc => h c ((List.dropWhile_suffix isBlank).subset hc)

theorem dropEndWhile_append_cons (hc : p c = false) (front : List Char) :
    dropEndWhile p (front ++ c :: cs) = front ++ c :: dropEndWhile p cs := by
  have hreverse : (front ++ c :: cs).reverse = cs.reverse ++ c :: front.reverse := by simp
  rw [dropEndWhile, dropEndWhile, hreverse, List.dropWhile_append]
  split
  case isTrue hnil =>
    rw [List.dropWhile_cons_of_neg (Bool.eq_false_iff.mp hc), List.isEmpty_iff.mp hnil]
    simp
  case isFalse => simp

theorem dropEndWhile_append_of_forall (h : ∀ c ∈ rest, p c) :
    dropEndWhile p (cs ++ rest) = dropEndWhile p cs := by
  rw [dropEndWhile, List.reverse_append,
    List.dropWhile_append_of_pos fun c hc => h c (List.mem_reverse.mp hc), dropEndWhile]

theorem trim_append_of_forall (h : ∀ c ∈ rest, isBlank c) : trim (cs ++ rest) = trim cs := by
  rw [trim, trimWhile, List.dropWhile_append]
  split
  case isTrue hnil =>
    rw [List.dropWhile_eq_nil_iff.mpr h, trim, trimWhile, List.isEmpty_iff.mp hnil]
  case isFalse => exact dropEndWhile_append_of_forall h

theorem trim_dropEndWhile (cs : List Char) : trim (dropEndWhile isBlank cs) = trim cs := by
  have hsplit : cs = dropEndWhile isBlank cs ++ cs.rtakeWhile isBlank :=
    List.rdropWhile_append_rtakeWhile.symm
  conv_rhs => rw [hsplit]
  exact (trim_append_of_forall fun c hc => List.mem_rtakeWhile_imp hc).symm

theorem not_isBlank_of_head?_trim (hc : c ∈ (trim cs).head?) : isBlank c = false := by
  obtain ⟨rest, hrest⟩ : trim cs <+: cs.dropWhile isBlank := List.rdropWhile_prefix isBlank _
  have hhead : (cs.dropWhile isBlank).head? = some c := by
    rw [← hrest, List.head?_append, Option.mem_def.mp hc]
    rfl
  have hnot := List.head?_dropWhile_not isBlank cs
  rw [hhead] at hnot
  exact hnot

theorem not_isBlank_of_getLast?_trim (hc : c ∈ (trim cs).getLast?) : isBlank c = false := by
  obtain ⟨hne, rfl⟩ := List.mem_getLast?_eq_getLast hc
  exact Bool.eq_false_iff.mpr (List.rdropWhile_last_not isBlank _ hne)

theorem trim_trim (cs : List Char) : trim (trim cs) = trim cs :=
  trim_eq_self (fun _ => not_isBlank_of_head?_trim) fun _ => not_isBlank_of_getLast?_trim

end Text

namespace Version

theorem dotted_cons (h : pieces ≠ []) :
    dotted (piece :: pieces) = piece ++ '.' :: dotted pieces := by
  cases pieces with
  | nil => exact absurd rfl h
  | cons _ _ => rfl

theorem eq_dot_or_mem_of_mem_dotted (h : c ∈ dotted pieces) : c = '.' ∨ ∃ piece ∈ pieces, c ∈ piece := by
  induction pieces with
  | nil => cases h
  | cons piece pieces ih =>
    cases pieces with
    | nil => exact Or.inr ⟨piece, List.mem_cons_self, h⟩
    | cons next pieces =>
      obtain h | h := List.mem_append.mp h
      · exact Or.inr ⟨piece, List.mem_cons_self, h⟩
      · obtain rfl | h := List.mem_cons.mp h
        · exact Or.inl rfl
        · exact (ih h).imp_right fun ⟨p, hp, hc⟩ => ⟨p, List.mem_cons_of_mem _ hp, hc⟩

theorem dotted_splitOnChar (cs : List Char) : dotted (splitOnChar '.' cs) = cs := by
  induction cs with
  | nil => rfl
  | cons c cs ih =>
    have hne := splitOnChar_ne_nil '.' cs
    by_cases hc : c = '.'
    · rw [splitOnChar, if_pos hc, dotted_cons hne, ih, hc]
      rfl
    · obtain ⟨piece, pieces, hcs⟩ := List.exists_cons_of_ne_nil hne
      rw [splitOnChar_cons_of_ne hc hcs]
      rw [hcs] at ih
      cases pieces with
      | nil => exact congrArg (c :: ·) ih
      | cons _ _ => exact congrArg (c :: ·) ih

theorem splitOnChar_dotted (hne : pieces ≠ []) (h : ∀ piece ∈ pieces, '.' ∉ piece) :
    splitOnChar '.' (dotted pieces) = pieces := by
  induction pieces with
  | nil => exact absurd rfl hne
  | cons piece pieces ih =>
    obtain ⟨hpiece, hpieces⟩ := List.forall_mem_cons.mp h
    cases pieces with
    | nil => exact splitOnChar_of_not_mem hpiece
    | cons next pieces =>
      rw [dotted_cons (List.cons_ne_nil _ _), splitOnChar_append hpiece,
        ih (List.cons_ne_nil _ _) hpieces]

end Version

end Provision
