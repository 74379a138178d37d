import Provision.Text.Element

namespace Provision.Text

variable {c : Char} {cs ds : List Char} {s : String}

/-! ### Characters held -/

theorem ofCharacters_eq_flatMap (cs : List Char) :
    ofCharacters cs = cs.flatMap fun c => Element.held (.char c) := by
  unfold ofCharacters
  split
  case isTrue => rfl
  case isFalse h => rw [flatMap_held_of_not_mem (by simpa using h)]

theorem ofCharacters_of_not_mem (h : mark ∉ cs) : ofCharacters cs = cs :=
  if_neg (by simpa using h)

theorem ofCharacters_append (cs ds : List Char) :
    ofCharacters (cs ++ ds) = ofCharacters cs ++ ofCharacters ds := by
  simp only [ofCharacters_eq_flatMap, List.flatMap_append]

theorem ofCharacters_cons (c : Char) (cs : List Char) :
    ofCharacters (c :: cs) = Element.held (.char c) ++ ofCharacters cs := by
  simp only [ofCharacters_eq_flatMap, List.flatMap_cons]

theorem held_of_ne_mark (h : c ≠ mark) : Element.held (.char c) = [c] :=
  if_neg h

theorem mem_ofCharacters_iff (h : c ≠ mark) : c ∈ ofCharacters cs ↔ c ∈ cs := by
  induction cs with
  | nil => rfl
  | cons d cs ih =>
    rw [ofCharacters_cons, List.mem_append, List.mem_cons, ih]
    refine or_congr_left ?_
    by_cases hd : d = mark
    · simp [Element.held, hd, h]
    · rw [held_of_ne_mark hd, List.mem_singleton]

theorem flatMap_ofCharacters {g : Char → List Char} (hmark : g mark = [mark])
    (hother : ∀ c ≠ mark, mark ∉ g c) (cs : List Char) :
    (ofCharacters cs).flatMap g = ofCharacters (cs.flatMap g) := by
  induction cs with
  | nil => rfl
  | cons c cs ih =>
    rw [ofCharacters_cons, List.flatMap_append, ih, List.flatMap_cons, ofCharacters_append]
    refine congrArg (· ++ _) ?_
    by_cases hc : c = mark
    · subst hc
      simp [Element.held, hmark, ofCharacters_cons, ofCharacters_of_not_mem]
    · rw [held_of_ne_mark hc, List.flatMap_singleton, ofCharacters_of_not_mem (hother c hc)]

theorem joined_char (cs : List Char) : joined (cs.map .char) = cs := by
  induction cs with
  | nil => rfl
  | cons c cs ih => rw [List.map_cons, joined, ih]

/-! ### Texts -/

def held (s : String) : String :=
  String.ofList (ofCharacters s.toList)

/-- A text without halves. -/
def IsWhole (s : String) : Prop :=
  ∃ t, s = held t

theorem toList_held (s : String) : (held s).toList = ofCharacters s.toList :=
  String.toList_ofList

theorem held_of_not_mem (h : mark ∉ s.toList) : held s = s := by
  rw [held, ofCharacters_of_not_mem h, String.ofList_toList]

theorem isWhole_of_not_mem (h : mark ∉ s.toList) : IsWhole s :=
  ⟨s, (held_of_not_mem h).symm⟩

theorem characters_held (s : String) : characters (held s) = s.toList := by
  unfold characters
  dsimp only
  rw [toList_held]
  split
  case isTrue => rw [elements_ofCharacters, joined_char]
  case isFalse h =>
    -- The mark would be held as marks.
    refine ofCharacters_of_not_mem fun hmem => h ?_
    obtain ⟨before, after, hcs⟩ := List.append_of_mem hmem
    rw [hcs, ofCharacters_append, ofCharacters_cons]
    simp [Element.held]

theorem IsWhole.held_characters (h : IsWhole s) : held (String.ofList (characters s)) = s := by
  obtain ⟨t, rfl⟩ := h
  rw [characters_held, String.ofList_toList]

theorem unencodable?_char (n : Nat) (cs : List Char) : unencodable? n (cs.map .char) = none := by
  induction cs generalizing n with
  | nil => rfl
  | cons c cs ih => exact ih (n + 1)

theorem encode_held (s : String) : encode (held s) = .ok s.toUTF8 := by
  unfold encode
  dsimp only
  split
  case isTrue =>
    rw [toList_held, elements_ofCharacters, unencodable?_char, joined_char, String.ofList_toList]
    rfl
  case isFalse h =>
    have hmark : mark ∉ s.toList := by
      have hcs := characters_held s
      rw [characters, if_neg h] at hcs
      simpa [hcs] using h
    rw [held_of_not_mem hmark]
    rfl

end Provision.Text
