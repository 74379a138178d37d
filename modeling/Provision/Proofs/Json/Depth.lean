import Provision.Proofs.Json.Reading

namespace Provision.Json

open Provision.Text

variable {α : Type} {close : Char} {cs rest : List Char} {v : Value} {fractions : Fractions}
  {level depth : Nat}

/-! ### Equations -/

inductive Begins : List Char → Prop
  | text (cs : List Char) : Begins ('"' :: cs)
  | list (cs : List Char) : Begins ('[' :: cs)
  | map (cs : List Char) : Begins ('\x7b' :: cs)
  | bare {cs : List Char} (hquote : cs.head? ≠ some '"') (hlist : cs.head? ≠ some '[')
      (hmap : cs.head? ≠ some '\x7b') : Begins cs

theorem begins (cs : List Char) : Begins cs := by
  by_cases hquote : cs.head? = some '"'
  · obtain ⟨cs, rfl⟩ := List.head?_eq_some_iff.mp hquote
    exact .text cs
  by_cases hlist : cs.head? = some '['
  · obtain ⟨cs, rfl⟩ := List.head?_eq_some_iff.mp hlist
    exact .list cs
  by_cases hmap : cs.head? = some '\x7b'
  · obtain ⟨cs, rfl⟩ := List.head?_eq_some_iff.mp hmap
    exact .map cs
  exact .bare hquote hlist hmap

def insideBrackets (close : Char) (make : List α → Value)
    (parts : List Char → Except Fault (List α × List Char)) (cs : List Char) :
    Except Fault (Value × List Char) :=
  if cs.head? = some close then return (make [], cs.tail)
  else do
    let (xs, rest) ← parts cs
    return (make xs, rest)

def behindPart (close : Char) (part : α) (further : List Char → Except Fault (List α × List Char))
    (cs : List Char) : Except Fault (List α × List Char) :=
  if cs.head? = some close then return ([part], cs.tail)
  else if cs.head? = some ',' then do
    let (parts, rest) ← further (skipSpace cs.tail)
    return (part :: parts, rest)
  else throw .illFormed

theorem readValue_quote (cs : List Char) : readValue fractions level (depth + 1) ('"' :: cs) =
    (do
      let (es, rest) ← readText none cs
      return (.text (textOf es), rest)) := by
  rw [readValue]

theorem readValue_list (cs : List Char) : readValue fractions level (depth + 1) ('[' :: cs) =
    if level = mostLevels then throw .tooDeep
    else insideBrackets ']' .list (readElements fractions (level + 1) depth) (skipSpace cs) := by
  rw [readValue]
  refine if_congr Iff.rfl rfl ?_
  unfold insideBrackets
  split
  case h_1 heq =>
    rw [heq]
    rfl
  case h_2 hclose => exact (if_neg fun h => (List.head?_eq_some_iff.mp h).elim hclose).symm

theorem readValue_map (cs : List Char) : readValue fractions level (depth + 1) ('\x7b' :: cs) =
    if level = mostLevels then throw .tooDeep
    else
      insideBrackets '\x7d' (fun es => .map (Value.ofEntries es))
        (readEntries fractions (level + 1) depth) (skipSpace cs) := by
  rw [readValue]
  refine if_congr Iff.rfl rfl ?_
  unfold insideBrackets
  split
  case h_1 heq =>
    rw [heq]
    rfl
  case h_2 hclose => exact (if_neg fun h => (List.head?_eq_some_iff.mp h).elim hclose).symm

theorem readValue_bare (hquote : cs.head? ≠ some '"') (hlist : cs.head? ≠ some '[')
    (hmap : cs.head? ≠ some '\x7b') : readValue fractions level (depth + 1) cs =
      match readWord? cs with
      | some found => .ok found
      | none =>
        if cs.head? = some '-' then readNumber fractions ['-'] cs.tail
        else readNumber fractions [] cs := by
  unfold readValue
  split
  case h_1 => exact absurd rfl hquote
  case h_2 => exact absurd rfl hlist
  case h_3 => exact absurd rfl hmap
  case h_4 =>
    cases readWord? cs with
    | some found => rfl
    | none =>
      dsimp only
      split
      case h_1 => rfl
      case h_2 hminus => exact (if_neg fun h => (List.head?_eq_some_iff.mp h).elim hminus).symm

theorem readElements_succ (cs : List Char) : readElements fractions level (depth + 1) cs =
    (do
      let (v, rest) ← readValue fractions level depth cs
      behindPart ']' v (readElements fractions level depth) (skipSpace rest)) := by
  rw [readElements]
  refine bind_congr fun ⟨v, rest⟩ => ?_
  dsimp only
  unfold behindPart
  split
  case h_1 heq =>
    rw [heq]
    rfl
  case h_2 heq =>
    rw [heq]
    rfl
  case h_3 hclose hcomma =>
    rw [if_neg fun h => (List.head?_eq_some_iff.mp h).elim hclose,
      if_neg fun h => (List.head?_eq_some_iff.mp h).elim hcomma]

theorem readEntries_quote (cs : List Char) : readEntries fractions level (depth + 1) ('"' :: cs) =
    (do
      let (key, rest) ← readText none cs
      if (skipSpace rest).head? = some ':' then do
        let (v, rest) ← readValue fractions level depth (skipSpace (skipSpace rest).tail)
        behindPart '\x7d' (.text (textOf key), v) (readEntries fractions level depth) (skipSpace rest)
      else throw .illFormed) := by
  rw [readEntries]
  refine bind_congr fun ⟨key, rest⟩ => ?_
  dsimp only
  split
  case h_2 hcolon => exact (if_neg fun h => (List.head?_eq_some_iff.mp h).elim hcolon).symm
  case h_1 heq =>
  rw [heq]
  refine bind_congr fun ⟨v, rest⟩ => ?_
  dsimp only
  unfold behindPart
  split
  case h_1 heq =>
    rw [heq]
    rfl
  case h_2 heq =>
    rw [heq]
    rfl
  case h_3 hclose hcomma =>
    rw [if_neg fun h => (List.head?_eq_some_iff.mp h).elim hclose,
      if_neg fun h => (List.head?_eq_some_iff.mp h).elim hcomma]

theorem readEntries_of_head?_ne (h : cs.head? ≠ some '"') :
    readEntries fractions level depth cs = .error .illFormed := by
  cases depth with
  | zero => rfl
  | succ depth =>
    rw [readEntries]
    · rfl
    · rintro cs rfl
      exact h rfl

theorem skipSpace_append {blanks : List Char} (h : ∀ c ∈ blanks, isSpace c) (cs : List Char) :
    skipSpace (blanks ++ cs) = skipSpace cs := by
  unfold skipSpace
  rw [List.dropWhile_append_of_pos h]

/-! ### Rests -/

theorem length_skipSpace_le (cs : List Char) : (skipSpace cs).length ≤ cs.length :=
  (List.dropWhile_sublist _).length_le

theorem length_tail_le (cs : List Char) : cs.tail.length ≤ cs.length :=
  (List.tail_sublist cs).length_le

theorem length_le_of_readWord? (h : readWord? cs = some (v, rest)) : rest.length ≤ cs.length := by
  obtain ⟨⟨word, w⟩, -, hword⟩ := List.exists_of_findSome?_eq_some h
  dsimp only at hword
  split at hword
  · obtain ⟨-, rfl⟩ := Prod.mk.inj (Option.some.inj hword)
    exact (List.drop_sublist _ _).length_le
  · cases hword

theorem length_le_of_readNumber {sign : List Char} (h : readNumber .asText sign cs = .ok (v, rest)) :
    rest.length ≤ cs.length := by
  obtain ⟨d, digits, hcuts, -⟩ := of_readNumber h
  rw [← hcuts.append]
  exact List.length_append ▸ Nat.le_add_left _ _

theorem length_le_of_readText {first : Option Nat} {es : List Element}
    (h : readText first cs = .ok (es, rest)) : rest.length ≤ cs.length := by
  obtain ⟨body, rfl, -⟩ := exists_body h
  exact List.length_append ▸ Nat.le_add_left _ _

theorem length_le_of_insideBrackets {make : List α → Value}
    {parts : List Char → Except Fault (List α × List Char)}
    (hparts : ∀ {cs rest : List Char} {xs : List α}, parts cs = .ok (xs, rest) → rest.length ≤ cs.length)
    (h : insideBrackets close make parts cs = .ok (v, rest)) : rest.length ≤ cs.length := by
  unfold insideBrackets at h
  split at h
  case isTrue =>
    obtain ⟨-, rfl⟩ := Prod.mk.inj (Except.ok.inj h)
    exact length_tail_le cs
  case isFalse =>
    obtain ⟨⟨xs, rest⟩, hread, heq⟩ := bind_eq_ok_iff.mp h
    obtain ⟨-, rfl⟩ := Prod.mk.inj (Except.ok.inj heq)
    exact hparts hread

theorem length_le_of_behindPart {part : α} {xs : List α}
    {further : List Char → Except Fault (List α × List Char)}
    (hfurther : ∀ {cs rest : List Char} {xs : List α},
      further cs = .ok (xs, rest) → rest.length ≤ cs.length)
    (h : behindPart close part further cs = .ok (xs, rest)) : rest.length ≤ cs.length := by
  unfold behindPart at h
  split at h
  case isTrue =>
    obtain ⟨-, rfl⟩ := Prod.mk.inj (Except.ok.inj h)
    exact length_tail_le cs
  case isFalse =>
    split at h
    case isTrue =>
      obtain ⟨⟨xs, rest⟩, hread, heq⟩ := bind_eq_ok_iff.mp h
      obtain ⟨-, rfl⟩ := Prod.mk.inj (Except.ok.inj heq)
      calc
        _ ≤ (skipSpace cs.tail).length := hfurther hread
        _ ≤ cs.tail.length := length_skipSpace_le cs.tail
        _ ≤ cs.length := length_tail_le cs
    case isFalse => cases h

/-- What is left behind a value, elements or entries is no longer than the text. -/
structure Shortens (depth : Nat) : Prop where
  value {level : Nat} {cs rest : List Char} {v : Value} :
    readValue .asText level depth cs = .ok (v, rest) → rest.length ≤ cs.length
  elements {level : Nat} {cs rest : List Char} {vs : List Value} :
    readElements .asText level depth cs = .ok (vs, rest) → rest.length ≤ cs.length
  entries {level : Nat} {cs rest : List Char} {es : List (Value × Value)} :
    readEntries .asText level depth cs = .ok (es, rest) → rest.length ≤ cs.length

theorem shortens_value (ih : Shortens depth)
    (h : readValue .asText level (depth + 1) cs = .ok (v, rest)) :
    rest.length ≤ cs.length := by
  cases begins cs with
  | text cs =>
    rw [readValue_quote] at h
    obtain ⟨⟨es, rest⟩, hread, heq⟩ := bind_eq_ok_iff.mp h
    obtain ⟨-, rfl⟩ := Prod.mk.inj (Except.ok.inj heq)
    exact (length_le_of_readText hread).trans (Nat.le_succ _)
  | list cs =>
    rw [readValue_list] at h
    split at h
    case isTrue => cases h
    case isFalse =>
      have hinside := length_le_of_insideBrackets ih.elements h
      exact (hinside.trans (length_skipSpace_le cs)).trans (Nat.le_succ _)
  | map cs =>
    rw [readValue_map] at h
    split at h
    case isTrue => cases h
    case isFalse =>
      have hinside := length_le_of_insideBrackets ih.entries h
      exact (hinside.trans (length_skipSpace_le cs)).trans (Nat.le_succ _)
  | bare hquote hlist hmap =>
    rw [readValue_bare hquote hlist hmap] at h
    split at h
    case h_1 found hword =>
      obtain rfl := Except.ok.inj h
      exact length_le_of_readWord? hword
    case h_2 =>
      split at h
      case isTrue => exact (length_le_of_readNumber h).trans (length_tail_le cs)
      case isFalse => exact length_le_of_readNumber h

theorem shortens_elements {vs : List Value} (ih : Shortens depth)
    (h : readElements .asText level (depth + 1) cs = .ok (vs, rest)) : rest.length ≤ cs.length := by
  rw [readElements_succ] at h
  obtain ⟨⟨v, behind⟩, hread, h⟩ := bind_eq_ok_iff.mp h
  calc
    _ ≤ (skipSpace behind).length := length_le_of_behindPart ih.elements h
    _ ≤ behind.length := length_skipSpace_le behind
    _ ≤ cs.length := ih.value hread

theorem shortens_entries {es : List (Value × Value)} (ih : Shortens depth)
    (h : readEntries .asText level (depth + 1) cs = .ok (es, rest)) : rest.length ≤ cs.length := by
  by_cases hquote : cs.head? = some '"'
  case neg =>
    rw [readEntries_of_head?_ne hquote] at h
    cases h
  case pos =>
  obtain ⟨cs, rfl⟩ := List.head?_eq_some_iff.mp hquote
  rw [readEntries_quote] at h
  obtain ⟨⟨key, behindKey⟩, hkey, h⟩ := bind_eq_ok_iff.mp h
  dsimp only at h
  split at h
  case isFalse => cases h
  case isTrue =>
  obtain ⟨⟨v, behind⟩, hread, h⟩ := bind_eq_ok_iff.mp h
  calc
    _ ≤ (skipSpace behind).length := length_le_of_behindPart ih.entries h
    _ ≤ behind.length := length_skipSpace_le behind
    _ ≤ (skipSpace (skipSpace behindKey).tail).length := ih.value hread
    _ ≤ (skipSpace behindKey).tail.length := length_skipSpace_le _
    _ ≤ (skipSpace behindKey).length := length_tail_le _
    _ ≤ behindKey.length := length_skipSpace_le behindKey
    _ ≤ cs.length := length_le_of_readText hkey
    _ ≤ cs.length + 1 := Nat.le_succ _

theorem shortens : ∀ depth : Nat, Shortens depth
  | 0 => ⟨nofun, nofun, nofun⟩
  | depth + 1 =>
    have ih := shortens depth
    ⟨shortens_value ih, shortens_elements ih, shortens_entries ih⟩

/-! ### Depth -/

theorem insideBrackets_congr {make : List α → Value}
    {parts parts' : List Char → Except Fault (List α × List Char)} (h : parts cs = parts' cs) :
    insideBrackets close make parts cs = insideBrackets close make parts' cs := by
  unfold insideBrackets
  rw [h]

theorem length_tail_lt {c : Char} (h : cs.head? = some c) : cs.tail.length < cs.length := by
  obtain ⟨rest, rfl⟩ := List.head?_eq_some_iff.mp h
  exact Nat.lt_succ_self _

/-- Further parts are shorter than what stands behind a part. -/
theorem behindPart_congr {part : α} {further further' : List Char → Except Fault (List α × List Char)}
    (h : ∀ more : List Char, more.length < cs.length → further more = further' more) :
    behindPart close part further cs = behindPart close part further' cs := by
  unfold behindPart
  split
  case isTrue => rfl
  case isFalse =>
    split
    case isTrue hcomma =>
      rw [h _ (Nat.lt_of_le_of_lt (length_skipSpace_le cs.tail) (length_tail_lt hcomma))]
    case isFalse => rfl

structure Suffices (depth depth' : Nat) : Prop where
  value {level : Nat} {cs : List Char} : 2 * cs.length + 1 ≤ depth → 2 * cs.length + 1 ≤ depth' →
    readValue .asText level depth cs = readValue .asText level depth' cs
  elements {level : Nat} {cs : List Char} : 2 * cs.length + 2 ≤ depth → 2 * cs.length + 2 ≤ depth' →
    readElements .asText level depth cs = readElements .asText level depth' cs
  entries {level : Nat} {cs : List Char} : 2 * cs.length + 2 ≤ depth → 2 * cs.length + 2 ≤ depth' →
    readEntries .asText level depth cs = readEntries .asText level depth' cs

variable {depth' : Nat}

theorem suffices_value (ih : Suffices depth depth') (h : 2 * cs.length ≤ depth)
    (h' : 2 * cs.length ≤ depth') :
    readValue .asText level (depth + 1) cs = readValue .asText level (depth' + 1) cs := by
  cases begins cs with
  | text cs => rw [readValue_quote, readValue_quote]
  | list cs =>
    have hskip := length_skipSpace_le cs
    rw [List.length_cons] at h h'
    rw [readValue_list, readValue_list, insideBrackets_congr (ih.elements (by omega) (by omega))]
  | map cs =>
    have hskip := length_skipSpace_le cs
    rw [List.length_cons] at h h'
    rw [readValue_map, readValue_map, insideBrackets_congr (ih.entries (by omega) (by omega))]
  | bare hquote hlist hmap => rw [readValue_bare hquote hlist hmap, readValue_bare hquote hlist hmap]

theorem suffices_elements (ih : Suffices depth depth') (h : 2 * cs.length + 1 ≤ depth)
    (h' : 2 * cs.length + 1 ≤ depth') :
    readElements .asText level (depth + 1) cs = readElements .asText level (depth' + 1) cs := by
  rw [readElements_succ, readElements_succ, ih.value h h']
  refine bind_congr_ok fun ⟨v, behind⟩ hread => behindPart_congr fun more hmore => ?_
  have hbehind := (shortens depth').value hread
  have hskip := length_skipSpace_le behind
  exact ih.elements (by omega) (by omega)

theorem suffices_entries (ih : Suffices depth depth') (h : 2 * cs.length + 1 ≤ depth)
    (h' : 2 * cs.length + 1 ≤ depth') :
    readEntries .asText level (depth + 1) cs = readEntries .asText level (depth' + 1) cs := by
  by_cases hquote : cs.head? = some '"'
  case neg => rw [readEntries_of_head?_ne hquote, readEntries_of_head?_ne hquote]
  case pos =>
  obtain ⟨cs, rfl⟩ := List.head?_eq_some_iff.mp hquote
  rw [List.length_cons] at h h'
  rw [readEntries_quote, readEntries_quote]
  refine bind_congr_ok fun ⟨key, behindKey⟩ hkey => ?_
  have hvalue : (skipSpace (skipSpace behindKey).tail).length ≤ cs.length :=
    calc
      _ ≤ (skipSpace behindKey).tail.length := length_skipSpace_le _
      _ ≤ (skipSpace behindKey).length := length_tail_le _
      _ ≤ behindKey.length := length_skipSpace_le behindKey
      _ ≤ cs.length := length_le_of_readText hkey
  refine if_congr Iff.rfl ?_ rfl
  rw [ih.value (by omega) (by omega)]
  refine bind_congr_ok fun ⟨v, behind⟩ hread => behindPart_congr fun more hmore => ?_
  have hbehind := (shortens depth').value hread
  have hskip := length_skipSpace_le behind
  exact ih.entries (by omega) (by omega)

theorem suffices_all : ∀ depth depth' : Nat, Suffices depth depth'
  | 0, _ => ⟨by omega, by omega, by omega⟩
  | _ + 1, 0 => ⟨by omega, by omega, by omega⟩
  | depth + 1, depth' + 1 =>
    have ih := suffices_all depth depth'
    { value := fun h h' => suffices_value ih (by omega) (by omega)
      elements := fun h h' => suffices_elements ih (by omega) (by omega)
      entries := fun h h' => suffices_entries ih (by omega) (by omega) }

/-- A document is read with any depth that is enough for it. -/
theorem read_eq {depth : Nat} (h : 2 * cs.length + 1 ≤ depth) : read .asText cs =
    (do
      let (v, rest) ← readValue .asText 0 depth (skipSpace cs)
      if (skipSpace rest).isEmpty then return v else throw .illFormed) := by
  have hskip := length_skipSpace_le cs
  unfold read
  rw [(suffices_all (2 * cs.length + 1) depth).value (by omega) (by omega)]

theorem read_of_error {depth : Nat} {f : Fault} (h : 2 * cs.length + 1 ≤ depth)
    (hread : readValue .asText 0 depth (skipSpace cs) = .error f) : read .asText cs = .error f := by
  rw [read_eq h, hread]
  rfl

theorem read_of_ok {depth : Nat} (h : 2 * cs.length + 1 ≤ depth)
    (hread : readValue .asText 0 depth (skipSpace cs) = .ok (v, rest)) :
    read .asText cs = if (skipSpace rest).isEmpty then .ok v else .error .illFormed := by
  rw [read_eq h, hread]
  rfl

end Provision.Json
