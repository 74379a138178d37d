import Mathlib.Data.List.Forall2
import Provision.Proofs.Text.Pieces
import Provision.Text.Secret

namespace Provision.Text.Secret

variable {cs front rest last key word value : List Char} {c : Char}

/-! ### Keys and values -/

abbrev Spells (word key : List Char) : Prop :=
  List.Forall₂ (fun letter c => isLetter letter c) word key

def IsKey (key : List Char) : Prop :=
  ∃ word ∈ keys, Spells word key

structure IsValue (value : List Char) : Prop where
  nonempty : value ≠ []
  chars : ∀ c ∈ value, isValueChar c

def Stops (rest : List Char) : Prop :=
  ∀ c ∈ rest.head?, ¬isValueChar c

theorem isLetter_mark : keys.all fun word => word.all fun letter =>
    !isLetter letter '=' && !isLetter letter '*' := by
  decide

theorem exists_letter (h : Spells word key) (hc : c ∈ key) : ∃ letter ∈ word, isLetter letter c := by
  induction h with
  | nil => cases hc
  | cons hd _ ih =>
    obtain rfl | hc := List.mem_cons.mp hc
    · exact ⟨_, List.mem_cons_self, hd⟩
    · obtain ⟨letter, hletter, hc⟩ := ih hc
      exact ⟨letter, List.mem_cons_of_mem _ hletter, hc⟩

theorem IsKey.not_mem (h : IsKey key) : '=' ∉ key ∧ '*' ∉ key := by
  obtain ⟨word, hword, hspelt⟩ := h
  have hmark : ∀ letter ∈ word, ¬isLetter letter '=' ∧ ¬isLetter letter '*' := by
    simpa using List.all_eq_true.mp isLetter_mark word hword
  constructor
  · intro hmem
    obtain ⟨letter, hletter, hc⟩ := exists_letter hspelt hmem
    exact (hmark letter hletter).1 hc
  · intro hmem
    obtain ⟨letter, hletter, hc⟩ := exists_letter hspelt hmem
    exact (hmark letter hletter).2 hc

theorem IsKey.ne_nil (h : IsKey key) : key ≠ [] := by
  obtain ⟨word, hword, hspelt⟩ := h
  rintro rfl
  cases hspelt
  exact absurd hword (by decide)

theorem key_append_inj {key' rest' : List Char} (hkey : '=' ∉ key) (hkey' : '=' ∉ key')
    (h : key ++ '=' :: rest = key' ++ '=' :: rest') : key = key' ∧ rest = rest' := by
  have hrun {xs : List Char} (hx : '=' ∉ xs) : ∀ c ∈ xs, decide (c ≠ '=') := fun c hc =>
    decide_eq_true fun heq => hx (heq ▸ hc)
  have hstop (xs : List Char) : ∀ c ∈ ('=' :: xs).head?, ¬decide (c ≠ '=') := by simp
  obtain ⟨rfl, hrest⟩ := run_append_inj (hrun hkey) (hrun hkey') (hstop rest) (hstop rest') h
  exact ⟨rfl, (List.cons.inj hrest).2⟩

theorem afterWord_eq_some_iff : afterWord word cs = some rest ↔
    ∃ key, Spells word key ∧ cs = key ++ rest := by
  induction word generalizing cs with
  | nil => simp [afterWord]
  | cons letter word ih =>
    cases cs with
    | nil => simp [afterWord, List.forall₂_cons_left_iff]
    | cons c cs =>
      rw [afterWord]
      by_cases hc : isLetter letter c
      · rw [if_pos hc, ih]
        constructor
        · rintro ⟨key, hkey, rfl⟩
          exact ⟨c :: key, .cons hc hkey, rfl⟩
        · rintro ⟨key, hkey, hcs⟩
          obtain ⟨d, tail, -, htail, rfl⟩ := List.forall₂_cons_left_iff.mp hkey
          exact ⟨tail, htail, (List.cons.inj hcs).2⟩
      · rw [if_neg hc]
        constructor
        · intro hnone
          cases hnone
        · rintro ⟨key, hkey, hcs⟩
          obtain ⟨d, tail, hd, -, rfl⟩ := List.forall₂_cons_left_iff.mp hkey
          obtain rfl := (List.cons.inj hcs).1
          exact absurd hd hc

theorem of_afterKey? (h : afterKey? cs = some (key, rest)) : IsKey key ∧ cs = key ++ '=' :: rest := by
  obtain ⟨word, hword, hw⟩ := List.exists_of_findSome?_eq_some h
  split at hw
  · rename_i value hvalue
    obtain ⟨key', hspelt, rfl⟩ := afterWord_eq_some_iff.mp hvalue
    obtain ⟨rfl, rfl⟩ := Prod.mk.inj (Option.some.inj hw)
    rw [hspelt.length_eq, List.take_left]
    exact ⟨⟨word, hword, hspelt⟩, rfl⟩
  · cases hw

theorem afterKey?_key (h : IsKey key) (rest : List Char) :
    afterKey? (key ++ '=' :: rest) = some (key, rest) := by
  obtain ⟨word, hword, hspelt⟩ := h
  have hafter : afterWord word (key ++ '=' :: rest) = some ('=' :: rest) :=
    afterWord_eq_some_iff.mpr ⟨key, hspelt, rfl⟩
  have hsome : (afterKey? (key ++ '=' :: rest)).isSome := by
    rw [afterKey?, List.findSome?_isSome_iff]
    exact ⟨word, hword, by rw [hafter]; rfl⟩
  obtain ⟨⟨key', rest'⟩, hfound⟩ := Option.isSome_iff_exists.mp hsome
  -- Whatever word it was, the first equals sign is behind it.
  obtain ⟨hkey', heq⟩ := of_afterKey? hfound
  obtain ⟨rfl, rfl⟩ :=
    key_append_inj (IsKey.not_mem ⟨word, hword, hspelt⟩).1 hkey'.not_mem.1 heq
  exact hfound

def Begins (cs : List Char) : Prop :=
  ∃ key c rest, cs = key ++ '=' :: c :: rest ∧ IsKey key ∧ isValueChar c

theorem begins_of_value (hkey : IsKey key) (hvalue : IsValue value) (rest : List Char) :
    Begins (key ++ '=' :: (value ++ rest)) := by
  obtain ⟨c, value, rfl⟩ := List.exists_cons_of_ne_nil hvalue.nonempty
  exact ⟨key, c, value ++ rest, rfl, hkey, hvalue.chars c List.mem_cons_self⟩

theorem of_secret? (h : secret? cs = some (key, rest)) :
    ∃ value, cs = key ++ '=' :: (value ++ rest) ∧ IsKey key ∧ IsValue value ∧ Stops rest := by
  unfold secret? at h
  split at h
  case h_2 => cases h
  case h_1 key' c behind hafter =>
    obtain ⟨hkey, rfl⟩ := of_afterKey? hafter
    split at h
    case isFalse => cases h
    case isTrue hc =>
      obtain ⟨rfl, rfl⟩ := Prod.mk.inj (Option.some.inj h)
      refine ⟨c :: behind.takeWhile isValueChar, ?_, hkey, ⟨List.cons_ne_nil _ _, ?_⟩, ?_⟩
      · rw [List.cons_append, List.takeWhile_append_dropWhile]
      · rw [List.forall_mem_cons]
        exact ⟨hc, fun d hd => List.all_eq_true.mp (List.all_takeWhile) d hd⟩
      · intro d hd
        have := List.head?_dropWhile_not isValueChar behind
        rw [hd] at this
        simp [this]

theorem secret?_of_begins (h : Begins cs) : ∃ key rest, secret? cs = some (key, rest) := by
  obtain ⟨key, c, rest, rfl, hkey, hc⟩ := h
  exact ⟨key, rest.dropWhile isValueChar, by rw [secret?, afterKey?_key hkey]; exact if_pos hc⟩

theorem secret?_eq_none_iff : secret? cs = none ↔ ¬Begins cs := by
  constructor
  · intro hnone hbegins
    obtain ⟨key, rest, hsome⟩ := secret?_of_begins hbegins
    rw [hnone] at hsome
    cases hsome
  · intro hbare
    cases h : secret? cs with
    | none => rfl
    | some found =>
      obtain ⟨value, rfl, hkey, hvalue, -⟩ := of_secret? h
      exact absurd (begins_of_value hkey hvalue _) hbare

theorem secret?_value (hkey : IsKey key) (hvalue : IsValue value) (hrest : Stops rest) :
    secret? (key ++ '=' :: (value ++ rest)) = some (key, rest) := by
  obtain ⟨key', rest', h⟩ := secret?_of_begins (begins_of_value hkey hvalue rest)
  obtain ⟨value', heq, hkey', hvalue', hrest'⟩ := of_secret? h
  obtain ⟨rfl, hbehind⟩ := key_append_inj hkey.not_mem.1 hkey'.not_mem.1 heq
  obtain ⟨-, rfl⟩ := run_append_inj hvalue.chars hvalue'.chars hrest hrest' hbehind
  exact h

/-! ### Finding secrets from the left -/

/-- A secret, with what stands between the one before and it. -/
structure Find where
  front : List Char
  key : List Char
  value : List Char

def written : List Find → List Char → List Char
  | [], last => last
  | f :: finds, last => f.front ++ (f.key ++ '=' :: (f.value ++ written finds last))

/-- No secret begins in the front part of a text. -/
def Bare (front rest : List Char) : Prop :=
  ∀ part, part <:+ front → part ≠ [] → ¬Begins (part ++ rest)

/-- The secrets of a text are found from the left: none begins in front of the first one, whose value
goes as far as it can, and the others are found behind it. -/
inductive Leftmost : List Find → List Char → Prop
  | none {last : List Char} (bare : Bare last []) : Leftmost [] last
  | next {f : Find} {finds : List Find} {last : List Char}
      (bare : Bare f.front (f.key ++ '=' :: (f.value ++ written finds last)))
      (key : IsKey f.key) (value : IsValue f.value) (stops : Stops (written finds last))
      (behind : Leftmost finds last) : Leftmost (f :: finds) last

theorem bare_nil (rest : List Char) : Bare [] rest := by
  intro part hpart hne
  exact absurd (List.suffix_nil.mp hpart) hne

theorem bare_cons : Bare (c :: front) rest ↔ ¬Begins (c :: (front ++ rest)) ∧ Bare front rest := by
  constructor
  · intro h
    exact ⟨h _ (List.suffix_refl _) (List.cons_ne_nil _ _), fun part hpart =>
      h part (hpart.trans (List.suffix_cons c front))⟩
  · rintro ⟨hhead, hfront⟩ part hpart hne
    obtain rfl | hpart := List.suffix_cons_iff.mp hpart
    · exact hhead
    · exact hfront part hpart hne

theorem exists_leftmost (cs : List Char) : ∃ finds last, Leftmost finds last ∧ cs = written finds last := by
  induction cs using hide.induct with
  | case1 cs key rest h ih =>
    obtain ⟨value, rfl, hkey, hvalue, hstops⟩ := of_secret? h
    obtain ⟨finds, last, hfinds, rfl⟩ := ih
    exact ⟨⟨[], key, value⟩ :: finds, last, .next (bare_nil _) hkey hvalue hstops hfinds, rfl⟩
  | case2 => exact ⟨[], [], .none (bare_nil _), rfl⟩
  | case3 c cs h ih =>
    have hbegins := secret?_eq_none_iff.mp h
    obtain ⟨finds, last, hfinds, rfl⟩ := ih
    -- Nothing begins at this character, so it belongs in front of the first secret behind it.
    cases hfinds with
    | none hbare =>
      refine ⟨[], c :: last, .none (bare_cons.mpr ⟨?_, hbare⟩), rfl⟩
      rw [List.append_nil]
      exact hbegins
    | @next f finds _ hbare hkey hvalue hstops hbehind =>
      exact ⟨⟨c :: f.front, f.key, f.value⟩ :: finds, last,
        .next (bare_cons.mpr ⟨hbegins, hbare⟩) hkey hvalue hstops hbehind, rfl⟩

/-! ### Masking -/

theorem hide_nil : hide [] = [] := by
  rw [hide.eq_1]
  rfl

theorem hide_of_secret? (h : secret? cs = some (key, rest)) : hide cs = key ++ mask ++ hide rest := by
  rw [hide.eq_1]
  split
  case h_1 h' =>
    rw [h] at h'
    cases h'
    rfl
  case h_2 h' =>
    rw [h] at h'
    cases h'

theorem hide_cons (h : ¬Begins (c :: cs)) : hide (c :: cs) = c :: hide cs := by
  have hnone := secret?_eq_none_iff.mpr h
  rw [hide.eq_1]
  split
  case h_1 h' =>
    rw [hnone] at h'
    cases h'
  case h_2 => rfl

theorem hide_append (h : Bare front rest) : hide (front ++ rest) = front ++ hide rest := by
  induction front with
  | nil => rfl
  | cons c front ih =>
    obtain ⟨hhead, hfront⟩ := bare_cons.mp h
    rw [List.cons_append, hide_cons hhead, ih hfront, List.cons_append]

def stars : List Char := ['*', '*', '*']

def Find.masked (f : Find) : Find := { f with value := stars }

theorem Leftmost.hide_written {finds : List Find} (h : Leftmost finds last) :
    hide (written finds last) = written (finds.map Find.masked) last := by
  induction h with
  | none hbare =>
    have h := hide_append hbare
    rw [List.append_nil, hide_nil, List.append_nil] at h
    exact h
  | next hbare hkey hvalue hstops _ ih =>
    rw [written, hide_append hbare, hide_of_secret? (secret?_value hkey hvalue hstops), ih]
    simp [written, Find.masked, mask, stars]

/-! ### Other values -/

structure Find.Alike (f g : Find) : Prop where
  front : g.front = f.front
  key : g.key = f.key
  value : IsValue g.value

/-- Whether a secret begins somewhere in front of an equals sign is not told by the value behind it. -/
theorem Begins.of_value {a b : List Char} (hc : isValueChar c)
    (h : Begins (front ++ '=' :: a)) : Begins (front ++ '=' :: c :: b) := by
  obtain ⟨key, d, rest, heq, hkey, hd⟩ := h
  obtain ⟨part, rfl, hpart⟩ | ⟨part, rfl, hpart⟩ := List.append_eq_append_iff.mp heq
  · cases part with
    | nil => exact ⟨front, c, b, rfl, by simpa using hkey, hc⟩
    | cons e part =>
      obtain ⟨rfl, -⟩ := List.cons.inj hpart
      exact absurd (by simp) hkey.not_mem.1
  · cases part with
    | nil => exact ⟨key, c, b, by simp, hkey, hc⟩
    | cons e part =>
      obtain ⟨rfl, hrest⟩ := List.cons.inj hpart
      cases part with
      | nil => exact ⟨key, '=', c :: b, by simp, hkey, by decide⟩
      | cons e part =>
        obtain ⟨rfl, -⟩ := List.cons.inj hrest
        exact ⟨key, d, part ++ '=' :: c :: b, by simp, hkey, hd⟩

theorem Bare.of_value {a b : List Char} (ha : IsValue a)
    (h : Bare front (key ++ '=' :: (a ++ rest))) : Bare front (key ++ '=' :: b) := by
  obtain ⟨c, a, rfl⟩ := List.exists_cons_of_ne_nil ha.nonempty
  intro part hpart hne hbegins
  refine h part hpart hne ?_
  rw [← List.append_assoc] at hbegins ⊢
  exact hbegins.of_value (ha.chars c List.mem_cons_self)

theorem head?_written {finds finds' : List Find} (h : List.Forall₂ Find.Alike finds finds')
    (last : List Char) : (written finds' last).head? = (written finds last).head? := by
  cases h with
  | nil => rfl
  | cons hf _ => simp [written, hf.front, hf.key, List.head?_append]

theorem Leftmost.of_alike {finds finds' : List Find} (h : Leftmost finds last)
    (halike : List.Forall₂ Find.Alike finds finds') : Leftmost finds' last := by
  induction h generalizing finds' with
  | none hbare =>
    cases halike
    exact .none hbare
  | next hbare hkey hvalue hstops _ ih =>
    cases halike with
    | cons hf hfinds =>
      refine .next ?_ (hf.key ▸ hkey) hf.value ?_ (ih hfinds)
      · rw [hf.front, hf.key]
        exact hbare.of_value hvalue
      · rw [Stops, head?_written hfinds]
        exact hstops

theorem isValue_stars : IsValue stars :=
  ⟨List.cons_ne_nil _ _, List.all_eq_true.mp (by decide)⟩

theorem alike_masked (finds : List Find) : List.Forall₂ Find.Alike finds (finds.map Find.masked) := by
  induction finds with
  | nil => exact .nil
  | cons f finds ih => exact .cons ⟨rfl, rfl, isValue_stars⟩ ih

theorem map_masked {finds finds' : List Find} (h : List.Forall₂ Find.Alike finds finds') :
    finds'.map Find.masked = finds.map Find.masked := by
  induction h with
  | nil => rfl
  | cons hf _ ih => rw [List.map_cons, List.map_cons, ih, Find.masked, Find.masked, hf.front, hf.key]

/-! ### What is left of values -/

theorem Bare.exists_behind {before tail : List Char} (h : Bare front rest) (htail : Begins tail)
    (heq : front ++ rest = before ++ tail) : ∃ part, rest = part ++ tail := by
  obtain ⟨part, -, hrest⟩ | ⟨part, rfl, rfl⟩ := List.append_eq_append_iff.mp heq
  · exact ⟨part, hrest⟩
  · cases part with
    | nil => exact ⟨[], rfl⟩
    | cons c part =>
      exact absurd htail (h _ (List.suffix_append before _) (List.cons_ne_nil _ _))

theorem exists_behind_stars {before : List Char} (hkey : IsKey key)
    (heq : stars ++ rest = before ++ (key ++ last)) : ∃ part, rest = part ++ (key ++ last) := by
  obtain ⟨part, -, hrest⟩ | ⟨part, hstars, hpart⟩ := List.append_eq_append_iff.mp heq
  · exact ⟨part, hrest⟩
  · cases part with
    | nil => exact ⟨[], hpart.symm⟩
    | cons c part =>
      obtain ⟨d, key, rfl⟩ := List.exists_cons_of_ne_nil hkey.ne_nil
      obtain ⟨rfl, -⟩ := List.cons.inj hpart
      have hd : d ∈ stars := hstars ▸ List.mem_append_right _ List.mem_cons_self
      obtain rfl : d = '*' := by simpa [stars] using hd
      exact absurd List.mem_cons_self hkey.not_mem.2

theorem Leftmost.eq_stars {finds : List Find} (h : Leftmost finds last)
    (hmasked : ∀ f ∈ finds, f.value = stars) {before after : List Char} (hkey : IsKey key)
    (hvalue : IsValue value) (hafter : Stops after)
    (heq : written finds last = before ++ (key ++ '=' :: (value ++ after))) : value = stars := by
  have hbegins := begins_of_value hkey hvalue after
  induction h generalizing before with
  | @none last hbare =>
    rw [written, ← List.append_nil last] at heq
    obtain ⟨part, hpart⟩ := hbare.exists_behind hbegins heq
    simp at hpart
  | @next f finds last hbare hfkey _ hstops _ ih =>
    obtain ⟨hf, hfinds⟩ := List.forall_mem_cons.mp hmasked
    obtain ⟨part, hpart⟩ := hbare.exists_behind hbegins heq
    rw [hf] at hpart
    by_cases hequals : '=' ∈ part
    · obtain ⟨p, q, rfl, hp⟩ := List.eq_append_cons_of_mem hequals
      rw [List.append_assoc, List.cons_append] at hpart
      obtain ⟨-, hq⟩ := key_append_inj hfkey.not_mem.1 hp hpart
      obtain ⟨before, hbehind⟩ := exists_behind_stars hkey hq
      exact ih hfinds hbehind
    · rw [← List.append_assoc] at hpart
      have hnot : '=' ∉ part ++ key := List.not_mem_append hequals hkey.not_mem.1
      obtain ⟨-, hvalues⟩ := key_append_inj hfkey.not_mem.1 hnot hpart
      exact (run_append_inj isValue_stars.chars hvalue.chars hstops hafter hvalues).1.symm

/-! ### Whole texts -/

/-- Two texts differ at most in the values of their secrets. -/
def AlikeButForSecrets (s t : String) : Prop :=
  ∃ finds finds' last, Leftmost finds last ∧ List.Forall₂ Find.Alike finds finds' ∧
    s.toList = written finds last ∧ t.toList = written finds' last

/-- A text tells nothing of the secrets of another one and is the same otherwise. -/
structure Conceals (s t : String) : Prop where
  again : withoutSecrets t = t
  /-- A value behind a key is a mask, wherever it stands. -/
  hidden : ∀ before key value after, t.toList = before ++ (key ++ '=' :: (value ++ after)) →
    IsKey key → IsValue value → Stops after → value = stars
  found : ∃ finds last, Leftmost finds last ∧ s.toList = written finds last
  kept : ∀ finds last, Leftmost finds last → s.toList = written finds last →
    t.toList = written (finds.map Find.masked) last
  alike : ∀ u, AlikeButForSecrets s u → withoutSecrets u = t

theorem toList_withoutSecrets {s : String} {finds : List Find} (hfinds : Leftmost finds last)
    (hs : s.toList = written finds last) :
    (withoutSecrets s).toList = written (finds.map Find.masked) last := by
  rw [withoutSecrets, String.toList_ofList, hs, hfinds.hide_written]

theorem withoutSecrets_of_alike {s u : String} (h : AlikeButForSecrets s u) :
    withoutSecrets u = withoutSecrets s := by
  obtain ⟨finds, finds', last, hfinds, halike, hs, hu⟩ := h
  apply String.toList_inj.mp
  rw [toList_withoutSecrets hfinds hs, toList_withoutSecrets (hfinds.of_alike halike) hu,
    map_masked halike]

theorem conceals_withoutSecrets (s : String) : Conceals s (withoutSecrets s) := by
  obtain ⟨finds, last, hfinds, hs⟩ := exists_leftmost s.toList
  have hshown := toList_withoutSecrets hfinds hs
  have hmasked := hfinds.of_alike (alike_masked finds)
  refine ⟨?again, ?hidden, ⟨finds, last, hfinds, hs⟩, fun _ _ => toList_withoutSecrets,
    fun _ => withoutSecrets_of_alike⟩
  case again =>
    exact withoutSecrets_of_alike ⟨finds, _, last, hfinds, alike_masked finds, hs, hshown⟩
  case hidden =>
    intro before key value after heq hkey hvalue hafter
    have hstars : ∀ f ∈ finds.map Find.masked, f.value = stars := by
      simp [Find.masked]
    exact hmasked.eq_stars hstars hkey hvalue hafter (hshown.symm.trans heq)

instance : Decidable (Begins cs) :=
  decidable_of_iff (secret? cs ≠ none) (by simp [secret?_eq_none_iff])

instance decidableBare : (front rest : List Char) → Decidable (Bare front rest)
  | [], rest => isTrue (bare_nil rest)
  | _ :: front, rest =>
    have := decidableBare front rest
    decidable_of_iff _ bare_cons.symm

instance : Decidable (IsKey key) :=
  inferInstanceAs (Decidable (∃ word ∈ keys, Spells word key))

-- Values are gone through one by one; a quantifier over characters would go through all there are.
instance : Decidable (IsValue value) :=
  decidable_of_iff (value ≠ [] ∧ value.all isValueChar)
    ⟨fun h => ⟨h.1, List.all_eq_true.mp h.2⟩, fun h => ⟨h.1, List.all_eq_true.mpr h.2⟩⟩

instance : Decidable (Stops rest) :=
  decidable_of_iff (rest.head?.all fun c => !isValueChar c) (by cases rest <;> simp [Stops])

namespace Sample

def address : String := "TOKEN=&Token=a=b ſecret=1"

def sibling : String := "TOKEN=&Token=token= ſecret=***"

def shown : String := "TOKEN=&Token=*** ſecret=***"

def secrets (first second : String) : List Find :=
  [⟨"TOKEN=&".toList, "Token".toList, first.toList⟩, ⟨" ".toList, "ſecret".toList, second.toList⟩]

end Sample

open Sample

theorem conceals_withoutSecrets_address : AlikeButForSecrets address sibling ∧
    withoutSecrets address = shown ∧ withoutSecrets sibling = shown := by
  have hfinds : Leftmost (secrets "a=b" "1") [] :=
    .next (by decide +kernel) (by decide) (by decide) (by decide) <|
      .next (by decide +kernel) (by decide) (by decide) (by decide) (.none (bare_nil []))
  have halike : List.Forall₂ Find.Alike (secrets "a=b" "1") (secrets "token=" "***") :=
    .cons ⟨rfl, rfl, by decide⟩ (.cons ⟨rfl, rfl, by decide⟩ .nil)
  have haddress : address.toList = written (secrets "a=b" "1") [] := by decide +kernel
  have hsibling : AlikeButForSecrets address sibling :=
    ⟨_, _, [], hfinds, halike, haddress, by decide +kernel⟩
  have hconceals := conceals_withoutSecrets address
  have hshown : withoutSecrets address = shown := by
    apply String.toList_inj.mp
    rw [hconceals.kept _ _ hfinds haddress]
    decide +kernel
  exact ⟨hsibling, hshown, (hconceals.alike sibling hsibling).trans hshown⟩

end Provision.Text.Secret
