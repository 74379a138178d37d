import Provision.Proofs.Json.Requoting
import Provision.Proofs.Value.Key

namespace Provision.Json

open Provision.Text
open Provision.Manifest (Alike IsVersionKey isSingle isWord Respelled RespelledItems RespelledEntries)
open Provision.Yaml (IsVersionText)

variable {key : Bool} {c : Char} {cs ds : List Char} {level depth : Nat}

/-! ### Entries -/

def EntryAlike (k v w : Value) : Prop :=
  Respelled v w ∨ ∃ key, k = .text key ∧ IsVersionKey key ∧ isWord v ∧ isWord w ∧ Alike v w

variable {k v w : Value} {es fs : List (Value × Value)}

theorem EntryAlike.cons (h : EntryAlike k v w) (hs : RespelledEntries es fs) :
    RespelledEntries ((k, v) :: es) ((k, w) :: fs) := by
  obtain h | ⟨key, rfl, hkey, hv, hw, halike⟩ := h
  · exact .cons h hs
  · exact .spelled hkey hv hw halike hs

theorem EntryAlike.sameKey {j : Value} (h : EntryAlike k v w) (hsame : Value.sameKey j k) :
    EntryAlike j v w :=
  h.imp_right fun ⟨key, hk, hspelled⟩ => ⟨key, Value.sameKey_text (hk ▸ hsame), hspelled⟩

theorem respelledEntries_cons {f : Value × Value} (hs : RespelledEntries es (f :: fs)) :
    ∃ v es', es = (f.1, v) :: es' ∧ EntryAlike f.1 v f.2 ∧ RespelledEntries es' fs := by
  cases hs with
  | cons h hs => exact ⟨_, _, rfl, Or.inl h, hs⟩
  | spelled hkey hv hw halike hs => exact ⟨_, _, rfl, Or.inr ⟨_, rfl, hkey, hv, hw, halike⟩, hs⟩

theorem respelledEntries_insert (h : EntryAlike k v w) (hs : RespelledEntries es fs) :
    RespelledEntries (Value.insert k v es) (Value.insert k w fs) := by
  induction fs generalizing es with
  | nil =>
    cases hs
    exact h.cons .nil
  | cons f fs ih =>
    obtain ⟨v', es, rfl, hf, hs⟩ := respelledEntries_cons hs
    unfold Value.insert
    split
    case isTrue hsame => exact (h.sameKey hsame).cons hs
    case isFalse => exact hf.cons (ih hs)

theorem respelledEntries_foldl (hs : RespelledEntries es fs) {acc acc' : List (Value × Value)}
    (hacc : RespelledEntries acc acc') :
    RespelledEntries (es.foldl (fun acc (k, v) => Value.insert k v acc) acc)
      (fs.foldl (fun acc (k, v) => Value.insert k v acc) acc') := by
  induction fs generalizing es acc acc' with
  | nil =>
    cases hs
    exact hacc
  | cons f fs ih =>
    obtain ⟨v, es, rfl, hf, hs⟩ := respelledEntries_cons hs
    exact ih hs (respelledEntries_insert hf hacc)

theorem respelledEntries_ofEntries (hs : RespelledEntries es fs) :
    RespelledEntries (Value.ofEntries es) (Value.ofEntries fs) :=
  respelledEntries_foldl hs .nil

/-- What stands behind the colon of an entry: the same, or a version with quotes in one of the texts. -/
theorem Requoted.colon (h : Requoted key (':' :: cs) ds) : ∃ ds', ds = ':' :: ds' ∧
    (Requoted true cs ds' ∨ key = true ∧ ∃ t a blanks rest rest' v, IsVersionText t a ∧
      (∀ c ∈ blanks, isSpace c) ∧ readNumber .asText [] (t.toList ++ rest) = .ok (v, rest) ∧
      Requoted true rest rest' ∧ cs = blanks ++ (t.toList ++ rest) ∧
      ds' = blanks ++ '"' :: (t.toList ++ '"' :: rest')) := by
  cases h with
  | same => exact ⟨_, rfl, Or.inl (.same _)⟩
  | blank hc => cases hc
  | mark _ h => exact ⟨_, rfl, Or.inl h.weaken⟩
  | version ht hblanks hnumber h =>
    exact ⟨_, rfl, Or.inr ⟨rfl, _, _, _, _, _, _, ht, hblanks, hnumber, h.weaken, rfl, rfl⟩⟩

theorem not_isSpace_of_isDigit (h : c.isDigit) : ¬isSpace c := by
  have hbounds := bounds_of_isDigit h
  intro hspace
  simp only [isSpace, Bool.or_eq_true, decide_eq_true_eq] at hspace
  obtain ((rfl | rfl) | rfl) | rfl := hspace <;> cases h

theorem reads_entryValue {k : String} (h : Requoted (decide (IsVersionKey k)) (':' :: cs) ds)
    (ih : ∀ {cs ds : List Char}, Requoted true cs ds →
      Reads Respelled (readValue .asText level depth cs) (readValue .asText level depth ds)) :
    ∃ ds', ds = ':' :: ds' ∧ Reads (EntryAlike (.text k)) (readValue .asText level depth (skipSpace cs))
      (readValue .asText level depth (skipSpace ds')) := by
  obtain ⟨ds', rfl, hsame | ⟨hkey, t, a, blanks, rest, rest', v, ht, hblanks, hnumber, hrest, rfl, rfl⟩⟩ :=
    h.colon
  · obtain hread | ⟨v, w, rest, rest', hv, hw, hvalue, hrest⟩ := ih hsame.skipSpace
    · exact ⟨ds', rfl, Or.inl hread⟩
    · exact ⟨ds', rfl, Or.inr ⟨v, w, rest, rest', hv, hw, Or.inl hvalue, hrest⟩⟩
  · refine ⟨_, rfl, ?_⟩
    obtain ⟨⟨d, digits, hwritten, hd, hnumerals⟩, hword, halike⟩ := alike_of_readNumber ht hnumber
    have hdigit : skipSpace (t.toList ++ rest) = t.toList ++ rest := by
      rw [hwritten]
      exact List.dropWhile_cons_of_neg (not_isSpace_of_isDigit hd)
    have hquote (cs : List Char) : skipSpace ('"' :: cs) = '"' :: cs := rfl
    rw [skipSpace_append hblanks, skipSpace_append hblanks, hdigit, hquote]
    cases depth with
    | zero => exact reads_error _
    | succ depth =>
      have hplain : readValue .asText level (depth + 1) (t.toList ++ rest) = .ok (v, rest) := by
        rw [hwritten] at hnumber ⊢
        exact (readValue_digit hd _).trans hnumber
      have hquoted : readValue .asText level (depth + 1) ('"' :: (t.toList ++ '"' :: rest')) =
          .ok (.text t, rest') := by
        rw [← hwritten] at hnumerals
        rw [readValue_quote, readText_numerals rest' hnumerals]
        show Except.ok (Value.text (textOf (t.toList.map Element.char)), rest') = _
        rw [textOf_numerals hnumerals, String.ofList_toList]
      rw [hplain, hquoted]
      exact reads_ok (Or.inr ⟨k, rfl, of_decide_eq_true hkey, hword, rfl, halike⟩) hrest

/-! ### Values -/

structure ReadAlike (depth : Nat) : Prop where
  value {level : Nat} {cs ds : List Char} : Requoted true cs ds →
    Reads Respelled (readValue .asText level depth cs) (readValue .asText level depth ds)
  elements {level : Nat} {cs ds : List Char} : Requoted true cs ds →
    Reads RespelledItems (readElements .asText level depth cs) (readElements .asText level depth ds)
  entries {level : Nat} {cs ds : List Char} : Requoted true cs ds →
    Reads RespelledEntries (readEntries .asText level depth cs) (readEntries .asText level depth ds)

theorem reads_behindPart {α : Type} {Q : List α → List α → Prop} {close : Char} {a b : α}
    {further further' : List Char → Except Fault (List α × List Char)} (hquote : close ≠ '"')
    (hcolon : close ≠ ':') (hlast : Q [a] [b]) (hcons : ∀ {xs ys}, Q xs ys → Q (a :: xs) (b :: ys))
    (hfurther : ∀ {cs ds : List Char}, Requoted true cs ds → Reads Q (further cs) (further' ds))
    (h : Requoted true cs ds) :
    Reads Q (behindPart close a further cs) (behindPart close b further' ds) := by
  unfold behindPart
  obtain ⟨cs, ds, rfl, rfl, hrest⟩ | ⟨hcs, hds⟩ := h.front close hquote hcolon
  · rw [if_pos List.head?_cons, if_pos List.head?_cons]
    exact reads_ok hlast hrest
  rw [if_neg hcs, if_neg hds]
  obtain ⟨cs, ds, rfl, rfl, hrest⟩ | ⟨hcs, hds⟩ := h.front ',' (by decide) (by decide)
  · rw [if_pos List.head?_cons, if_pos List.head?_cons]
    refine reads_bind (hfurther hrest.skipSpace) fun xs ys cs ds hparts hrest => ?_
    exact reads_ok (hcons hparts) hrest
  · rw [if_neg hcs, if_neg hds]
    exact reads_error _

theorem reads_insideBrackets {α : Type} {Q : List α → List α → Prop} {close : Char}
    {make : List α → Value}
    {parts parts' : List Char → Except Fault (List α × List Char)} (hquote : close ≠ '"')
    (hcolon : close ≠ ':') (hnil : Q [] []) (hmake : ∀ {xs ys}, Q xs ys → Respelled (make xs) (make ys))
    (hparts : ∀ {cs ds : List Char}, Requoted true cs ds → Reads Q (parts cs) (parts' ds))
    (h : Requoted true cs ds) :
    Reads Respelled (insideBrackets close make parts cs) (insideBrackets close make parts' ds) := by
  unfold insideBrackets
  obtain ⟨cs, ds, rfl, rfl, hrest⟩ | ⟨hcs, hds⟩ := h.front close hquote hcolon
  · rw [if_pos List.head?_cons, if_pos List.head?_cons]
    exact reads_ok (hmake hnil) hrest
  · rw [if_neg hcs, if_neg hds]
    refine reads_bind (hparts h) fun xs ys cs ds hxs hrest => ?_
    exact reads_ok (hmake hxs) hrest

theorem reads_elements (ih : ReadAlike depth) (h : Requoted true cs ds) :
    Reads RespelledItems (readElements .asText level (depth + 1) cs)
      (readElements .asText level (depth + 1) ds) := by
  rw [readElements_succ, readElements_succ]
  refine reads_bind (ih.value h) fun v w cs ds hvalue hrest => ?_
  exact reads_behindPart (by decide) (by decide) (.cons hvalue .nil)
    (fun hvalues => .cons hvalue hvalues) ih.elements hrest.skipSpace

theorem reads_entries (ih : ReadAlike depth) (h : Requoted true cs ds) :
    Reads RespelledEntries (readEntries .asText level (depth + 1) cs)
      (readEntries .asText level (depth + 1) ds) := by
  by_cases hquote : cs.head? = some '"'
  case neg =>
    rw [readEntries_of_head?_ne hquote, readEntries_of_head?_ne (h.head?_eq ▸ hquote)]
    exact reads_error _
  case pos =>
  obtain ⟨cs, rfl⟩ := List.head?_eq_some_iff.mp hquote
  obtain ⟨ds, rfl, ⟨f, hf, hf'⟩ | ⟨es, rest, rest', hes, hes', hrest⟩⟩ := h.readText
  · rw [readEntries_quote, readEntries_quote, hf, hf']
    exact reads_error f
  · rw [readEntries_quote, readEntries_quote, hes, hes']
    have hskip := hrest.skipSpace
    by_cases hcolon : (skipSpace rest).head? = some ':'
    case neg =>
      have hcolon' : (skipSpace rest').head? ≠ some ':' := hskip.head?_eq ▸ hcolon
      exact Or.inl ⟨.illFormed, if_neg hcolon, if_neg hcolon'⟩
    case pos =>
      obtain ⟨behind, hbehind⟩ := List.head?_eq_some_iff.mp hcolon
      rw [hbehind] at hskip
      obtain ⟨behind', hbehind', hvalue⟩ := reads_entryValue hskip ih.value
      change Reads RespelledEntries (if _ then _ else _) (if _ then _ else _)
      rw [hbehind, hbehind', if_pos List.head?_cons, if_pos List.head?_cons]
      refine reads_bind hvalue fun v w cs ds hentry hrest => ?_
      exact reads_behindPart (by decide) (by decide) (hentry.cons .nil)
        (fun hentries => hentry.cons hentries) ih.entries hrest.skipSpace

theorem reads_value (ih : ReadAlike depth) (h : Requoted true cs ds) :
    Reads Respelled (readValue .asText level (depth + 1) cs)
      (readValue .asText level (depth + 1) ds) := by
  cases begins cs with
  | text cs =>
    obtain ⟨ds, rfl, ⟨f, hf, hf'⟩ | ⟨es, rest, rest', hes, hes', hrest⟩⟩ := h.readText
    · rw [readValue_quote, readValue_quote, hf, hf']
      exact reads_error f
    · rw [readValue_quote, readValue_quote, hes, hes']
      exact reads_ok (.single rfl) hrest.weaken
  | list cs =>
    obtain ⟨ds, rfl, hrest⟩ := h.tail (by decide) (by decide)
    rw [readValue_list, readValue_list]
    split
    case isTrue => exact reads_error _
    case isFalse =>
      exact reads_insideBrackets (by decide) (by decide) .nil (fun hvalues => .list hvalues) ih.elements
        hrest.skipSpace
  | map cs =>
    obtain ⟨ds, rfl, hrest⟩ := h.tail (by decide) (by decide)
    rw [readValue_map, readValue_map]
    split
    case isTrue => exact reads_error _
    case isFalse =>
      exact reads_insideBrackets (by decide) (by decide) .nil
        (fun hentries => .map (respelledEntries_ofEntries hentries)) ih.entries hrest.skipSpace
  | bare hquote hlist hmap =>
    have hhead := h.head?_eq
    rw [readValue_bare hquote hlist hmap,
      readValue_bare (hhead ▸ hquote) (hhead ▸ hlist) (hhead ▸ hmap), hhead]
    obtain ⟨hword, hword'⟩ | ⟨v, cs', ds', hword, hword', hsingle, hrest⟩ := wordsAlike_readWord? h
    · rw [hword, hword']
      dsimp only
      split
      case isTrue hminus =>
        obtain ⟨cs, rfl⟩ := List.head?_eq_some_iff.mp hminus
        obtain ⟨ds, rfl, hrest⟩ := h.tail (by decide) (by decide)
        exact reads_number hrest
      case isFalse => exact reads_number h
    · rw [hword, hword']
      exact reads_ok (.single hsingle) hrest

theorem readAlike : ∀ depth : Nat, ReadAlike depth
  | 0 => ⟨fun _ => reads_error _, fun _ => reads_error _, fun _ => reads_error _⟩
  | depth + 1 =>
    have ih := readAlike depth
    ⟨reads_value ih, reads_elements ih, reads_entries ih⟩

/-- Texts that differ in the quotes around versions fail alike, or have values that differ in the
spelling of versions. -/
theorem read_requoted (h : Requoted false cs ds) :
    (∃ f, read .asText cs = .error f ∧ read .asText ds = .error f) ∨
      ∃ v w, read .asText cs = .ok v ∧ read .asText ds = .ok w ∧ Respelled v w := by
  have hread : Reads Respelled (readValue .asText 0 (2 * max cs.length ds.length + 1) (skipSpace cs))
      (readValue .asText 0 (2 * max cs.length ds.length + 1) (skipSpace ds)) :=
    (readAlike _).value h.weaken.skipSpace
  obtain ⟨f, hf, hf'⟩ | ⟨v, w, rest, rest', hv, hw, hvalue, hrest⟩ := hread
  · exact Or.inl ⟨f, read_of_error (by omega) hf, read_of_error (by omega) hf'⟩
  · rw [read_of_ok (by omega) hv, read_of_ok (by omega) hw, hrest.skipSpace.isEmpty_eq]
    split
    case isTrue => exact Or.inr ⟨v, w, rfl, rfl, hvalue⟩
    case isFalse => exact Or.inl ⟨.illFormed, rfl, rfl⟩

example : Requoted false ("\x7b\"version\": 1.10\x7d").toList
    ("\x7b\"version\": \"1.10\"\x7d").toList := by
  have ht : IsVersionText "1.10" ⟨1, 10, 0, ""⟩ :=
    ⟨by simp, by decide, by decide, rfl⟩
  have hblanks : ∀ c ∈ [' '], isSpace c := List.forall_mem_singleton.mpr rfl
  have hnumber : readNumber .asText [] ("1.10".toList ++ ['\x7d']) = .ok (.text "1.10", ['\x7d']) := rfl
  have hkey : readText none ("version\"".toList ++ ": 1.10\x7d".toList) =
      .ok ("version".toList.map Element.char, ": 1.10\x7d".toList) := by decide +kernel
  exact .mark (by decide) (.text hkey (.version ht hblanks hnumber (.same _)))

end Provision.Json
