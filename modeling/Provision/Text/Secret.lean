import Provision.Text.Blank

namespace Provision.Text.Secret

/-- Whether `c` is a letter in any case; the long s, the Kelvin sign and the letters i with and
without a dot count for the letter they fold to. -/
def isLetter (letter c : Char) : Bool :=
  c.toLower = letter || (letter = 's' && c = 'ſ') || (letter = 'k' && c = '\u212a') ||
    (letter = 'i' && (c = 'İ' || c = 'ı'))

def afterWord : List Char → List Char → Option (List Char)
  | [], cs => some cs
  | _ :: _, [] => none
  | letter :: word, c :: cs => if isLetter letter c then afterWord word cs else none

def keys : List (List Char) :=
  ["token", "password", "secret", "api_key", "apikey"].map String.toList

def afterKey? (cs : List Char) : Option (List Char × List Char) :=
  keys.findSome? fun key =>
    match afterWord key cs with
    | some ('=' :: value) => some (cs.take key.length, value)
    | _ => none

def isValueChar (c : Char) : Bool :=
  !(c = '&' || isBlank c)

/-- A secret's key and what stands behind its value, where a text begins with a secret. -/
def secret? (cs : List Char) : Option (List Char × List Char) :=
  match afterKey? cs with
  | some (key, c :: value) =>
    if isValueChar c then some (key, value.dropWhile isValueChar) else none
  | _ => none

theorem length_afterWord_le {word cs rest : List Char} (h : afterWord word cs = some rest) :
    rest.length ≤ cs.length := by
  induction word generalizing cs with
  | nil => simp_all [afterWord]
  | cons letter word ih =>
    cases cs with
    | nil => simp [afterWord] at h
    | cons c cs =>
      simp only [afterWord] at h
      split at h
      · exact Nat.le_succ_of_le (ih h)
      · simp at h

theorem length_afterKey?_lt {cs key value : List Char} (h : afterKey? cs = some (key, value)) :
    value.length < cs.length := by
  obtain ⟨word, -, hw⟩ := List.exists_of_findSome?_eq_some h
  split at hw
  · rename_i v hv
    have hle := length_afterWord_le hv
    simp only [Option.some.injEq, Prod.mk.injEq] at hw
    rw [← hw.2]
    exact hle
  · simp at hw

theorem length_secret?_lt {cs key rest : List Char} (h : secret? cs = some (key, rest)) :
    rest.length < cs.length := by
  unfold secret? at h
  split at h
  · rename_i k c value hk
    have hlt := length_afterKey?_lt hk
    split at h
    · simp only [Option.some.injEq, Prod.mk.injEq] at h
      have hd : (value.dropWhile isValueChar).length ≤ value.length :=
        (List.dropWhile_sublist _).length_le
      rw [← h.2]
      simp only [List.length_cons] at hlt
      omega
    · simp at h
  · simp at h

def mask : List Char := "=***".toList

def hide (cs : List Char) : List Char :=
  match _h : secret? cs with
  | some (key, rest) => key ++ mask ++ hide rest
  | none =>
    match cs with
    | [] => []
    | c :: cs => c :: hide cs
termination_by cs.length
decreasing_by
  · exact length_secret?_lt _h
  · simp

end Secret

def withoutSecrets (s : String) : String :=
  String.ofList (Secret.hide s.toList)

end Provision.Text
