import Mathlib.Data.Option.Basic
import Provision.Command.Configuration
import Provision.Proofs.Workspace.Failures

namespace Provision

namespace Command

open Provision.Resolution Provision.Operation

variable {α β : Type} {E : Failure → Prop} {f : Failure} {w w' : Workspace}

namespace Configuration

variable {a : Arguments} {d : Document}

theorem of_orNumeral {x : Option α} (h : orNumeral x = .error f) : f = .numeral := by
  cases x with
  | none =>
    cases h
    rfl
  | some a => cases h

theorem of_numeralOf {bs : List UInt8} (h : numeralOf bs = .error f) : f = .numeral := by
  unfold numeralOf at h
  split at h <;> cases h
  rfl

def Unread (f : Failure) : Prop :=
  f = .numeral ∨ f = .wrongType ∨ f = .overflow

theorem unread_of_toFloat {v : Value} (h : toFloat v = .error f) : Unread f := by
  unfold toFloat at h
  split at h
  · exact Or.inl (of_orNumeral h)
  · obtain h | ⟨cs, -, h⟩ := of_bind_eq_error h
    · exact Or.inl (of_numeralOf h)
    · exact Or.inl (of_orNumeral h)
  · unfold Value.toFloat at h
    split at h
    · cases h
    · dsimp only at h
      split at h <;> cases h
      exact Or.inr (Or.inr rfl)
    · cases h
    · cases h
      exact Or.inr (Or.inl rfl)

theorem unread_of_toInt {v : Value} (h : toInt v = .error f) : Unread f := by
  unfold toInt at h
  split at h
  · split at h
    · cases h
    · split at h <;> cases h
      · exact Or.inl rfl
      · exact Or.inr (Or.inr rfl)
  · exact Or.inl (of_orNumeral h)
  · obtain h | ⟨cs, -, h⟩ := of_bind_eq_error h
    · exact Or.inl (of_numeralOf h)
    · exact Or.inl (of_orNumeral h)
  · unfold Value.toInteger at h
    split at h <;> cases h
    exact Or.inr (Or.inl rfl)

def ofDocument (a : Arguments) (d : Document) : Operation Configuration := do
  httpSettings d
  let repositories ← repositoriesOf a d
  let mode ← modeOf a d
  return ⟨repositories, mode, a.units, ← logLevelOf a d⟩

theorem ofArguments_eq (a : Arguments) :
    ofArguments a = load (a.config.getD "") >>= ofDocument a := rfl

theorem parse_apply (path : String) (bytes : ByteArray) (w : Workspace) :
    parse path bytes w = match Yaml.read true (.ofFile bytes) with
      | .error (.failure cause) => .error cause w
      | .error _ => .error (.configuration (.unparsable path)) w
      | .ok v =>
        match v.opened with
        | .null => .ok [] w
        | .map entries => .ok entries w
        | _ => .error (.configuration (.noMapping path)) w := by
  unfold parse
  generalize Yaml.read true (.ofFile bytes) = reading
  obtain (_ | _ | cause) | v := reading
  · rfl
  · rfl
  · rfl
  · dsimp only
    generalize v.opened = opened
    cases opened <;> rfl

theorem load_apply {path : String} (hpath : path ≠ "") (w : Workspace) :
    load path w = if !w.files.isFile path then .error (.configuration (.noFile path)) w
      else match w.files.read path with
        | .error cause => .error (.configuration (.unreadable path cause)) w
        | .ok bytes => parse path bytes w := by
  unfold load
  rw [if_neg (by simpa using hpath), get_bind]
  generalize w.files.isFile path = b
  generalize w.files.read path = content
  cases b with
  | false => rfl
  | true =>
    cases content with
    | error cause => rfl
    | ok bytes => rfl

theorem endWorld_load (path : String) (w : Workspace) : endWorld (load path w) = w := by
  by_cases hpath : path = ""
  · subst hpath
    rfl
  rw [load_apply hpath]
  split
  · rfl
  · cases w.files.read path with
    | error cause => rfl
    | ok bytes =>
      dsimp only
      rw [parse_apply]
      split
      · rfl
      · rfl
      · split <;> rfl

end Configuration

end Command

end Provision
