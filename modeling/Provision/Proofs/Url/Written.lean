import Mathlib.Data.List.Basic
import Provision.Proofs.Text.Numeral
import Provision.Proofs.Text.Pieces
import Provision.Url

namespace Provision

open Provision.Text

/-- The parts of a web address. The place is a host and the port behind it. -/
structure WebAddress where
  scheme : List Char
  user : Option (List Char) := none
  place : List Char
  path : List Char := []
  query : Option (List Char) := none
  fragment : Option (List Char) := none

namespace WebAddress

def marked (mark : Char) : Option (List Char) → List Char
  | none => []
  | some part => mark :: part

def authority (a : WebAddress) : List Char :=
  match a.user with
  | none => a.place
  | some user => user ++ '@' :: a.place

def tail (a : WebAddress) : List Char :=
  a.path ++ marked '?' a.query ++ marked '#' a.fragment

def text (a : WebAddress) : List Char :=
  a.scheme ++ ':' :: '/' :: '/' :: (a.authority ++ a.tail)

def webSchemes : List (List Char) := ["http".toList, "https".toList]

/-- No part has a character that would end it. -/
structure IsWritten (a : WebAddress) : Prop where
  scheme : a.scheme.map Char.toLower ∈ webSchemes
  user : ∀ user ∈ a.user, ∀ c ∈ user, Url.endsAuthority c = false
  place : ∀ c ∈ a.place, Url.endsAuthority c = false ∧ c ≠ '@'
  rooted : ∀ c ∈ a.path.head?, c = '/'
  path : ∀ c ∈ a.path, c ≠ '?' ∧ c ≠ '#'
  query : ∀ query ∈ a.query, '#' ∉ query

def checks (a : WebAddress) : Bool :=
  a.scheme.map Char.toLower ∈ webSchemes && a.user.all (List.all · fun c => !Url.endsAuthority c) &&
    a.place.all (fun c => !Url.endsAuthority c && c != '@') && a.path.head?.all (· == '/') &&
    a.path.all (fun c => c != '?' && c != '#') && a.query.all fun query => !query.contains '#'

theorem checks_iff (a : WebAddress) : a.checks ↔ a.IsWritten := by
  simp only [checks, Bool.and_eq_true, decide_eq_true_eq, List.all_eq_true, Option.all_eq_true,
    Bool.not_eq_true', bne_iff_ne, beq_iff_eq, List.contains_eq_mem, decide_eq_false_iff_not]
  constructor
  · rintro ⟨⟨⟨⟨⟨hscheme, huser⟩, hplace⟩, hrooted⟩, hpath⟩, hquery⟩
    exact ⟨hscheme, huser, hplace, hrooted, hpath, hquery⟩
  · rintro ⟨hscheme, huser, hplace, hrooted, hpath, hquery⟩
    exact ⟨⟨⟨⟨⟨hscheme, huser⟩, hplace⟩, hrooted⟩, hpath⟩, hquery⟩

instance (a : WebAddress) : Decidable a.IsWritten :=
  decidable_of_iff (a.checks = true) a.checks_iff

def IsWeb (cs : List Char) : Prop :=
  ∃ scheme rest, scheme.map Char.toLower ∈ webSchemes ∧ cs = scheme ++ ':' :: '/' :: '/' :: rest

variable {a b : WebAddress} {cs rest : List Char} {c mark : Char}

/-! ### Every web address has these parts -/

theorem exists_run (p : Char → Bool) (cs : List Char) :
    ∃ front back, cs = front ++ back ∧ (∀ x ∈ front, p x = false) ∧ ∀ x ∈ back.head?, p x := by
  induction cs with
  | nil => exact ⟨[], [], rfl, nofun, nofun⟩
  | cons c cs ih =>
    by_cases hc : p c
    · exact ⟨[], c :: cs, rfl, nofun, fun x hx => Option.some.inj hx ▸ hc⟩
    · obtain ⟨front, back, rfl, hfront, hback⟩ := ih
      have hc : p c = false := Bool.eq_false_iff.mpr hc
      exact ⟨c :: front, back, rfl, List.forall_mem_cons.mpr ⟨hc, hfront⟩, hback⟩

theorem exists_marked (h : ∀ x ∈ cs.head?, x = mark) : ∃ part, cs = marked mark part := by
  cases cs with
  | nil => exact ⟨none, rfl⟩
  | cons c cs => exact ⟨some cs, by rw [h c rfl]; rfl⟩

theorem exists_authority (cs : List Char) :
    ∃ user place, '@' ∉ place ∧ (authority ⟨[], user, place, [], none, none⟩) = cs := by
  obtain ⟨back, front, hcs, hback, hfront⟩ := exists_run (· = '@') cs.reverse
  obtain ⟨part, rfl⟩ := exists_marked fun x hx => of_decide_eq_true (hfront x hx)
  have hplace : '@' ∉ back.reverse := fun hmem =>
    absurd (hback _ (List.mem_reverse.mp hmem)) (by decide)
  have hcs := congrArg List.reverse hcs
  rw [List.reverse_reverse] at hcs
  cases part with
  | none => exact ⟨none, back.reverse, hplace, by simpa [authority, marked] using hcs.symm⟩
  | some user =>
    exact ⟨some user.reverse, back.reverse, hplace, by simpa [authority, marked] using hcs.symm⟩

theorem exists_isWritten (h : IsWeb cs) : ∃ a : WebAddress, a.IsWritten ∧ a.text = cs := by
  obtain ⟨scheme, rest, hscheme, rfl⟩ := h
  obtain ⟨front, tail, rfl, hfront, htail⟩ := exists_run Url.endsAuthority rest
  obtain ⟨user, place, hplace, rfl⟩ := exists_authority front
  obtain ⟨hierarchy, back, rfl, hhierarchy, hback⟩ := exists_run (· = '#') tail
  obtain ⟨fragment, rfl⟩ := exists_marked fun x hx => of_decide_eq_true (hback x hx)
  obtain ⟨path, back, rfl, hpath, hback⟩ := exists_run (· = '?') hierarchy
  obtain ⟨query, rfl⟩ := exists_marked fun x hx => of_decide_eq_true (hback x hx)
  refine ⟨⟨scheme, user, place, path, query, fragment⟩, ⟨hscheme, ?_, ?_, ?_, ?_, ?_⟩, rfl⟩
  · rintro user rfl c hc
    exact hfront c (List.mem_append_left _ hc)
  · intro c hc
    refine ⟨hfront c ?_, fun hat => hplace (hat ▸ hc)⟩
    cases user with
    | none => exact hc
    | some user => exact List.mem_append_right _ (List.mem_cons_of_mem _ hc)
  · intro c hc
    have hhead : path.head? = some c := hc
    have hmem : c ∈ path := List.mem_of_mem_head? hhead
    have hends : Url.endsAuthority c := htail c (by simp [hhead])
    have hquery : c ≠ '?' := of_decide_eq_false (hpath c hmem)
    have hfragment : c ≠ '#' := of_decide_eq_false (hhierarchy c (List.mem_append_left _ hmem))
    simpa [Url.endsAuthority, hquery, hfragment] using hends
  · intro c hc
    exact ⟨of_decide_eq_false (hpath c hc),
      of_decide_eq_false (hhierarchy c (List.mem_append_left _ hc))⟩
  · rintro query rfl hmem
    have hmem := List.mem_append_right path (List.mem_cons_of_mem '?' hmem)
    exact absurd (hhierarchy _ hmem) (by decide)

/-! ### Tabs and line ends -/

/-- A character that counts in an address. -/
def counts (c : Char) : Bool := !(c = '\t' || c = '\r' || c = '\n')

def bare (a : WebAddress) : WebAddress where
  scheme := a.scheme
  user := a.user.map (List.filter counts)
  place := a.place.filter counts
  path := a.path.filter counts
  query := a.query.map (List.filter counts)
  fragment := a.fragment.map (List.filter counts)

theorem filter_marked (h : counts mark) (part : Option (List Char)) :
    (marked mark part).filter counts = marked mark (part.map (List.filter counts)) := by
  cases part with
  | none => rfl
  | some part => exact List.filter_cons_of_pos h

theorem isAlpha_of_mem_scheme (h : a.IsWritten) (hc : c ∈ a.scheme) : c.isAlpha := by
  have hschemes : webSchemes.all (List.all · Char.isAlpha) := by decide
  have hlower :=
    List.all_eq_true.mp (List.all_eq_true.mp hschemes _ h.scheme) _ (List.mem_map_of_mem hc)
  by_cases hupper : c.isUpper
  · exact (Bool.or_eq_true _ _).mpr (Or.inl hupper)
  · have hself : c.toLower = c := dif_neg fun h => hupper (decide_eq_true h)
    rwa [hself] at hlower

theorem ne_of_isAlpha {d : Char} (h : c.isAlpha) (hd : d.toNat < 0x41) : c ≠ d := by
  rintro rfl
  have := bounds_of_isAlpha h
  omega

theorem filter_scheme (h : a.IsWritten) : a.scheme.filter counts = a.scheme := by
  refine List.filter_eq_self.mpr fun c hc => ?_
  have halpha := isAlpha_of_mem_scheme h hc
  simp [counts, ne_of_isAlpha halpha (d := '\t') (by decide),
    ne_of_isAlpha halpha (d := '\r') (by decide), ne_of_isAlpha halpha (d := '\n') (by decide)]

theorem authority_bare (a : WebAddress) : a.bare.authority = a.authority.filter counts := by
  obtain ⟨scheme, user, place, path, query, fragment⟩ := a
  have hat : counts '@' := by decide
  cases user with
  | none => rfl
  | some user => simp [authority, bare, List.filter_cons_of_pos hat]

theorem text_bare (h : a.IsWritten) : a.bare.text = a.text.filter counts := by
  have hmarks : counts ':' ∧ counts '/' ∧ counts '?' ∧ counts '#' := by decide
  obtain ⟨hcolon, hslash, hquery, hfragment⟩ := hmarks
  rw [text, text, tail, tail, List.filter_append, List.filter_cons_of_pos hcolon,
    List.filter_cons_of_pos hslash, List.filter_cons_of_pos hslash, List.filter_append,
    List.filter_append, List.filter_append, filter_scheme h, filter_marked hquery,
    filter_marked hfragment, authority_bare]
  rfl

theorem IsWritten.bare (h : a.IsWritten) : a.bare.IsWritten where
  scheme := h.scheme
  user := by
    intro user huser c hc
    obtain ⟨full, hfull, rfl⟩ := Option.map_eq_some_iff.mp huser
    exact h.user full hfull c (List.mem_of_mem_filter hc)
  place c hc := h.place c (List.mem_of_mem_filter hc)
  path c hc := h.path c (List.mem_of_mem_filter hc)
  rooted := by
    intro c hc
    cases hpath : a.path with
    | nil =>
      simp only [WebAddress.bare, hpath] at hc
      cases hc
    | cons d path =>
      obtain rfl : d = '/' := h.rooted d (by rw [hpath]; rfl)
      have hslash : counts '/' := by decide
      simp only [WebAddress.bare, hpath, List.filter_cons_of_pos hslash] at hc
      exact (Option.some.inj hc).symm
  query := by
    intro query hquery hmem
    obtain ⟨full, hfull, rfl⟩ := Option.map_eq_some_iff.mp hquery
    exact h.query full hfull (List.mem_of_mem_filter hmem)

/-! ### Taking an address apart -/

theorem exists_scheme_eq_cons (h : a.IsWritten) : ∃ first name, a.scheme = first :: name := by
  refine List.exists_cons_of_ne_nil fun hnil => ?_
  have hscheme := h.scheme
  rw [hnil] at hscheme
  exact absurd hscheme (by decide)

theorem dropWhile_isLeading (h : a.IsWritten) : a.text.dropWhile Url.isLeading = a.text := by
  obtain ⟨first, name, hscheme⟩ := exists_scheme_eq_cons h
  have hfirst : first.isAlpha := isAlpha_of_mem_scheme h (hscheme ▸ List.mem_cons_self)
  have hleading : ¬Url.isLeading first := by
    have := bounds_of_isAlpha hfirst
    simp only [Url.isLeading, decide_eq_true_eq]
    omega
  rw [text, hscheme, List.cons_append, List.dropWhile_cons_of_neg hleading]

theorem cutScheme_text (h : a.IsWritten) :
    Url.cutScheme [] a.text =
      (a.scheme.map Char.toLower, '/' :: '/' :: (a.authority ++ a.tail)) := by
  have hcut : cutAt (· = ':') a.text = (a.scheme, some ('/' :: '/' :: (a.authority ++ a.tail))) :=
    cutAt_append (fun c hc => decide_eq_false
      (ne_of_isAlpha (isAlpha_of_mem_scheme h hc) (by decide))) (by decide)
  obtain ⟨first, name, hscheme⟩ := exists_scheme_eq_cons h
  have halpha : ∀ c ∈ first :: name, c.isAlpha := fun c hc => isAlpha_of_mem_scheme h (hscheme ▸ hc)
  have hname : (first.isAlpha && name.all Url.isSchemeChar) = true := by
    obtain ⟨hfirst, hname⟩ := List.forall_mem_cons.mp halpha
    rw [hfirst, Bool.true_and, List.all_eq_true]
    intro c hc
    simp [Url.isSchemeChar, Char.isAlphanum, hname c hc]
  rw [Url.cutScheme, hcut, hscheme]
  exact if_pos hname

theorem not_endsAuthority_of_mem (h : a.IsWritten) :
    ∀ c ∈ a.authority, Url.endsAuthority c = false := by
  have hplace : ∀ c ∈ a.place, Url.endsAuthority c = false := fun c hc => (h.place c hc).1
  unfold authority
  split
  · exact hplace
  · rename_i user huser
    exact List.forall_mem_append.mpr
      ⟨h.user user huser, List.forall_mem_cons.mpr ⟨by decide, hplace⟩⟩

theorem endsAuthority_head_tail (h : a.IsWritten) : ∀ c ∈ a.tail.head?, Url.endsAuthority c := by
  obtain ⟨scheme, user, place, path, query, fragment⟩ := a
  intro c hc
  cases path with
  | cons d path =>
    obtain rfl : c = '/' := h.rooted c hc
    decide
  | nil =>
    cases query with
    | some query =>
      obtain rfl : '?' = c := Option.some.inj hc
      decide
    | none =>
      cases fragment with
      | some fragment =>
        obtain rfl : '#' = c := Option.some.inj hc
        decide
      | none => cases hc

theorem cutAuthority_text (h : a.IsWritten) :
    Url.cutAuthority ('/' :: '/' :: (a.authority ++ a.tail)) = (a.authority, a.tail) := by
  have hauthority : ∀ c ∈ a.authority, (!Url.endsAuthority c) = true := fun c hc =>
    Bool.not_eq_eq_eq_not.mpr (not_endsAuthority_of_mem h c hc)
  have hstop : a.tail.takeWhile (fun c => !Url.endsAuthority c) = [] ∧
      a.tail.dropWhile (fun c => !Url.endsAuthority c) = a.tail := by
    cases htail : a.tail with
    | nil => exact ⟨rfl, rfl⟩
    | cons c rest =>
      have hc : Url.endsAuthority c := endsAuthority_head_tail h c (by rw [htail]; rfl)
      simp [hc]
  rw [Url.cutAuthority, List.takeWhile_append_of_pos hauthority,
    List.dropWhile_append_of_pos hauthority, hstop.1, hstop.2, List.append_nil]

theorem cutAt_marked (h : ∀ x ∈ cs, x ≠ mark) (part : Option (List Char)) :
    cutAt (· = mark) (cs ++ marked mark part) = (cs, part) := by
  have hcs : ∀ x ∈ cs, decide (x = mark) = false := fun x hx => decide_eq_false (h x hx)
  cases part with
  | none =>
    rw [marked, List.append_nil]
    exact cutAt_of_forall hcs
  | some part => exact cutAt_append hcs (decide_eq_true rfl)

theorem not_fragment_of_mem (h : a.IsWritten) : ∀ c ∈ a.path ++ marked '?' a.query, c ≠ '#' := by
  refine List.forall_mem_append.mpr ⟨fun c hc => (h.path c hc).2, ?_⟩
  cases hquery : a.query with
  | none => nofun
  | some query =>
    exact List.forall_mem_cons.mpr ⟨by decide, fun c hc heq => h.query query hquery (heq ▸ hc)⟩

def locator (a : WebAddress) : Url where
  scheme := a.scheme.map Char.toLower
  authority := a.authority
  path := a.path
  query := a.query.getD []
  fragment := a.fragment.getD []

/-- A web address is taken apart into its parts, unless its authority cannot be one. -/
theorem ofChars?_text (h : a.IsWritten) : Url.ofChars? [] a.text =
    if Url.isAuthority a.bare.authority then some a.bare.locator else none := by
  have hfilter : a.text.filter (fun c => !(c = '\t' || c = '\r' || c = '\n')) = a.bare.text :=
    (text_bare h).symm
  have hbare := h.bare
  have hquery : ∀ c ∈ a.bare.path, c ≠ '?' := fun c hc => (hbare.path c hc).1
  rw [Url.ofChars?, dropWhile_isLeading h, hfilter, cutScheme_text hbare]
  dsimp only
  rw [cutAuthority_text hbare]
  dsimp only
  rw [tail, cutAt_marked (not_fragment_of_mem hbare)]
  dsimp only
  rw [cutAt_marked hquery]
  rfl

theorem placeIn_authority (h : a.IsWritten) : Url.placeIn a.authority = a.place := by
  have hplace : ∀ c ∈ a.place, decide (c = '@') = false := fun c hc =>
    decide_eq_false (h.place c hc).2
  unfold authority
  cases a.user with
  | none => rw [Url.placeIn, cutAtLast_of_forall hplace]
  | some user => rw [Url.placeIn, cutAtLast_append (by decide) hplace]

end WebAddress

end Provision
