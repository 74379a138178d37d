import Provision.Proofs.Url.Written
import Provision.Repository

namespace Provision

open Provision.Text

variable {u v : Url} {a b : WebAddress} {port : List Char} {url : String}

namespace Url

/-- The port of a host: one that is left out, or decimal digits up to 65535. -/
def IsPort (port : List Char) : Prop :=
  port = [] ∨ (∀ c ∈ port, c.isDigit) ∧ ∃ n ≤ 65535, IsLegible port n

theorem publicPort_of_isPort (h : IsPort port) : ∃ shown, publicPort port = .ok shown := by
  obtain rfl | ⟨hdigits, n, hn, hlegible⟩ := h
  · exact ⟨[], rfl⟩
  · have hint :=
      (Numeral.int?_eq_some_iff fun c hc => isDigit_of_ascii (hdigits c hc)).mpr ⟨n, hlegible, rfl⟩
    have hlow : ¬(65535 < (n : Int)) := by omega
    rw [publicPort, if_neg (by simpa using hlegible.1.1), if_pos (List.all_eq_true.mpr hdigits), hint]
    simp only [if_neg hlow]
    split <;> exact ⟨_, rfl⟩

theorem publicPort_of_not_isPort (h : ¬IsPort port) : publicPort port = .error .numeral := by
  obtain ⟨hne, hport⟩ := not_or.mp h
  rw [publicPort, if_neg (by simpa using hne)]
  split
  case isFalse => rfl
  case isTrue hdigits =>
    have hdigits : ∀ c ∈ port, c.isDigit := List.all_eq_true.mp hdigits
    split
    case h_2 => rfl
    case h_1 i hi =>
      obtain ⟨n, hn, rfl⟩ :=
        (Numeral.int?_eq_some_iff fun c hc => isDigit_of_ascii (hdigits c hc)).mp hi
      have hhigh : 65535 < (n : Int) := by
        by_contra hlow
        exact hport ⟨hdigits, n, by omega, hn⟩
      exact if_pos hhigh

theorem hostAndPort_congr (h : placeIn u.authority = placeIn v.authority) :
    u.hostAndPort = v.hostAndPort := by
  rw [hostAndPort, hostAndPort, h]

theorem publicForm_congr (hscheme : u.scheme = v.scheme)
    (hplace : placeIn u.authority = placeIn v.authority) (hpath : u.path = v.path) :
    u.publicForm = v.publicForm := by
  rw [publicForm, publicForm, hostAndPort_congr hplace, hscheme, hpath]

theorem publicForm_of_isPort (h : IsPort u.hostAndPort.2) : ∃ form, u.publicForm = .ok form := by
  obtain ⟨port, hport⟩ := publicPort_of_isPort h
  rw [publicForm]
  dsimp only
  rw [hport]
  exact ⟨_, rfl⟩

theorem publicForm_of_not_isPort (h : ¬IsPort u.hostAndPort.2) : u.publicForm = .error .numeral := by
  rw [publicForm]
  dsimp only
  rw [publicPort_of_not_isPort h]
  rfl

theorem publicText_of_some (hne : url.isEmpty = false) (h : ofChars? [] url.toList = some u) :
    publicText url = String.ofList <$> u.publicForm := by
  rw [publicText, hne, h]
  rfl

theorem publicText_of_none (hne : url.isEmpty = false) (h : ofChars? [] url.toList = none) :
    publicText url = .ok (withoutSecrets url) := by
  rw [publicText, hne, h]
  rfl

end Url

namespace WebAddress

def string (a : WebAddress) : String :=
  String.ofList a.text

/-- Two addresses differ in their users, their queries and their fragments at most. -/
structure Alike (a b : WebAddress) : Prop where
  scheme : a.scheme.map Char.toLower = b.scheme.map Char.toLower
  place : a.place = b.place
  path : a.path = b.path

/-- The authority can be one: brackets stand around a host only, and no character stands for others
with a delimiter among them. -/
def IsSound (a : WebAddress) : Prop :=
  Url.isAuthority a.bare.authority

def HasPort (a : WebAddress) : Prop :=
  Url.IsPort (Url.hostAndPort { authority := a.bare.place }).2

/-- The user has neither brackets nor characters that stand for delimiters. -/
def HasPlainUser (a : WebAddress) : Prop :=
  ∀ user ∈ a.user, ∀ c ∈ user, c ≠ '[' ∧ c ≠ ']' ∧ Url.hidesDelimiter c = false

instance (a : WebAddress) : Decidable a.IsSound :=
  inferInstanceAs (Decidable (Url.isAuthority a.bare.authority = true))

def openly (a : WebAddress) : Url where
  scheme := a.scheme.map Char.toLower
  authority := a.bare.place
  path := a.bare.path

theorem Alike.openly (h : a.Alike b) : a.openly = b.openly := by
  simp only [WebAddress.openly, bare, h.scheme, h.place, h.path]

theorem placeIn_place (h : a.IsWritten) : Url.placeIn a.place = a.place := by
  rw [Url.placeIn, cutAtLast_of_forall fun c hc => decide_eq_false (h.place c hc).2]

theorem isEmpty_string (h : a.IsWritten) : a.string.isEmpty = false := by
  obtain ⟨first, name, hscheme⟩ := exists_scheme_eq_cons h
  simp [string, text, hscheme]

theorem publicText_of_isSound (h : a.IsWritten) (hsound : a.IsSound) :
    Url.publicText a.string = String.ofList <$> a.openly.publicForm := by
  have hparts : Url.ofChars? [] a.string.toList = some a.bare.locator := by
    rw [string, String.toList_ofList, ofChars?_text h]
    exact if_pos hsound
  have hplace := (placeIn_authority h.bare).trans (placeIn_place h.bare).symm
  rw [Url.publicText_of_some (isEmpty_string h) hparts,
    Url.publicForm_congr (u := a.bare.locator) (v := a.openly) rfl hplace rfl]

theorem publicText_of_not_isSound (h : a.IsWritten) (hsound : ¬a.IsSound) :
    Url.publicText a.string = .ok (withoutSecrets a.string) := by
  have hparts : Url.ofChars? [] a.string.toList = none := by
    rw [string, String.toList_ofList, ofChars?_text h]
    exact if_neg hsound
  exact Url.publicText_of_none (isEmpty_string h) hparts

theorem publicText_of_hasPort (h : a.IsWritten) (hsound : a.IsSound) (hport : a.HasPort) :
    ∃ shown, Url.publicText a.string = .ok shown := by
  obtain ⟨form, hform⟩ := Url.publicForm_of_isPort (u := a.openly) hport
  rw [publicText_of_isSound h hsound, hform]
  exact ⟨_, rfl⟩

theorem publicText_of_not_hasPort (h : a.IsWritten) (hsound : a.IsSound) (hport : ¬a.HasPort) :
    Url.publicText a.string = .error .numeral := by
  rw [publicText_of_isSound h hsound, Url.publicForm_of_not_isPort (u := a.openly) hport]
  rfl

theorem any_authority {p : Char → Bool} (hat : p '@' = false)
    (huser : ∀ user ∈ a.user, ∀ c ∈ user, p c = false) : a.authority.any p = a.place.any p := by
  unfold authority
  split
  · rfl
  · rename_i user hsome
    have hnone : user.any p = false :=
      List.any_eq_false.mpr fun c hc => Bool.eq_false_iff.mp (huser user hsome c hc)
    rw [List.any_append, hnone, List.any_cons, hat, Bool.false_or, Bool.false_or]

theorem isAuthority_authority (h : a.IsWritten) (hplain : a.HasPlainUser) :
    Url.isAuthority a.authority = Url.isAuthority a.place := by
  -- An address in brackets is looked for behind the user, brackets and delimiters everywhere.
  have haddress : Url.hasAddress a.authority = Url.hasAddress a.place := by
    rw [Url.hasAddress, Url.hasAddress, placeIn_authority h, placeIn_place h]
  have hopening : a.authority.contains '[' = a.place.contains '[' := by
    rw [List.contains_eq_any_beq, List.contains_eq_any_beq]
    exact any_authority (by decide) fun user hu c hc => beq_false_of_ne (hplain user hu c hc).1.symm
  have hclosing : a.authority.contains ']' = a.place.contains ']' := by
    rw [List.contains_eq_any_beq, List.contains_eq_any_beq]
    exact any_authority (by decide) fun user hu c hc => beq_false_of_ne (hplain user hu c hc).2.1.symm
  have hhides : a.authority.any Url.hidesDelimiter = a.place.any Url.hidesDelimiter :=
    any_authority (by decide) fun user hu c hc => (hplain user hu c hc).2.2
  rw [Url.isAuthority, Url.isAuthority, haddress, hopening, hclosing, hhides]

theorem HasPlainUser.bare (h : a.HasPlainUser) : a.bare.HasPlainUser := by
  intro user huser c hc
  obtain ⟨full, hfull, rfl⟩ := Option.map_eq_some_iff.mp huser
  exact h full hfull c (List.mem_of_mem_filter hc)

theorem isSound_iff (h : a.IsWritten) (hplain : a.HasPlainUser) :
    a.IsSound ↔ Url.isAuthority a.bare.place := by
  rw [IsSound, isAuthority_authority h.bare hplain.bare]

theorem Alike.isSound_iff (h : a.Alike b) (ha : a.IsWritten) (hb : b.IsWritten)
    (hplain : a.HasPlainUser) (hplain' : b.HasPlainUser) : a.IsSound ↔ b.IsSound := by
  rw [WebAddress.isSound_iff ha hplain, WebAddress.isSound_iff hb hplain', bare, bare, h.place]

theorem Alike.publicText (h : a.Alike b) (ha : a.IsWritten) (hb : b.IsWritten)
    (hsound : a.IsSound) (hsound' : b.IsSound) :
    Url.publicText a.string = Url.publicText b.string := by
  rw [publicText_of_isSound ha hsound, publicText_of_isSound hb hsound', h.openly]

end WebAddress

namespace Repository

/-- What a repository behind an address is called and written as tells no more of the address than
what is shown of it. -/
theorem literal_congr {url url' : String} (h : Url.publicText url = Url.publicText url')
    (r : Repository) (kind : String) :
    describe { r with identity := .remote url } = describe { r with identity := .remote url' } ∧
      literal kind { r with identity := .remote url } =
        literal kind { r with identity := .remote url' } := by
  have hdescribe :
      describe { r with identity := .remote url } = describe { r with identity := .remote url' } := by
    simp only [describe, h]
    rfl
  exact ⟨hdescribe, by rw [literal, literal, hdescribe]⟩

end Repository

namespace WebAddress

/-- Every address over HTTP has parts. If its authority can be one, what is shown of it, and of a
repository behind it, does not depend on its user, its query and its fragment, and only a port that
can be none leaves nothing to show; a user without brackets and characters that stand for delimiters
does not keep the authority from being one. If the authority cannot be one, the whole address is
shown, its marked secrets masked. -/
theorem shown_of_isWeb (h : IsWeb url.toList) :
    (∃ a : WebAddress, a.IsWritten ∧ a.string = url) ∧
    ∀ a : WebAddress, a.IsWritten → a.string = url →
      (¬a.IsSound → Url.publicText url = .ok (withoutSecrets url)) ∧
      (a.IsSound → ¬a.HasPort → Url.publicText url = .error .numeral) ∧
      (a.IsSound → a.HasPort → ∃ shown, Url.publicText url = .ok shown) ∧
      ∀ b : WebAddress, b.IsWritten → a.Alike b →
        (a.HasPlainUser → b.HasPlainUser → (a.IsSound ↔ b.IsSound)) ∧
        (a.IsSound → b.IsSound → Url.publicText url = Url.publicText b.string ∧
          ∀ (r : Repository) (kind : String),
            Repository.describe { r with identity := .remote url } =
                Repository.describe { r with identity := .remote b.string } ∧
              Repository.literal kind { r with identity := .remote url } =
                Repository.literal kind { r with identity := .remote b.string }) := by
  obtain ⟨a, ha, htext⟩ := exists_isWritten h
  refine ⟨⟨a, ha, by rw [string, htext, String.ofList_toList]⟩, ?_⟩
  clear! a
  rintro a ha rfl
  refine ⟨publicText_of_not_isSound ha, publicText_of_not_hasPort ha, publicText_of_hasPort ha,
    fun b hb hab => ⟨hab.isSound_iff ha hb, fun hsound hsound' => ?_⟩⟩
  have htext := hab.publicText ha hb hsound hsound'
  exact ⟨htext, Repository.literal_congr htext⟩

def guarded : WebAddress where
  scheme := "http".toList
  user := some "u:p@".toList
  place := "h:8080".toList
  path := "/p".toList
  query := some "sig=x".toList

def bracketed : WebAddress where
  scheme := "http".toList
  user := some "u:p[w".toList
  place := "h".toList
  path := "/p".toList

theorem shown_of_isWeb_guarded :
    Url.publicText "http://u:p@@h:8080/p?sig=x" = .ok "http://h:8080/p" ∧
      Repository.literal "RemoteUnitSource" (.ofUrl "http://u:p@@h:8080/p?sig=x" none) =
        .ok "RemoteUnitSource(http://h:8080/p)" := by
  have hweb : IsWeb guarded.string.toList := ⟨"http".toList, _, by decide, rfl⟩
  obtain ⟨-, hparts⟩ := shown_of_isWeb hweb
  obtain ⟨-, -, -, halike⟩ := hparts guarded (by decide) rfl
  obtain ⟨-, hshown⟩ := halike { guarded with user := none, query := none } (by decide) ⟨rfl, rfl, rfl⟩
  obtain ⟨htext, hrepository⟩ := hshown (by decide) (by decide)
  exact ⟨htext, (hrepository (.ofUrl guarded.string none) "RemoteUnitSource").2⟩

/-- A port that is none leaves nothing to show, and a bracket in the user shows the user. -/
theorem user_shown_of_bracketed :
    (¬∀ url : String, IsWeb url.toList → ∃ shown, Url.publicText url = .ok shown) ∧
      ¬∀ a b : WebAddress, a.IsWritten → b.IsWritten → a.Alike b →
        Url.publicText a.string = Url.publicText b.string := by
  constructor
  · intro hall
    obtain ⟨shown, hshown⟩ := hall "http://h:x/p" ⟨"http".toList, _, by decide, rfl⟩
    cases hshown
  · intro hall
    have htext := hall bracketed { bracketed with user := none } (by decide) (by decide) ⟨rfl, rfl, rfl⟩
    rw [publicText_of_not_isSound (by decide) (by decide)] at htext
    have hplain : Url.publicText (string { bracketed with user := none }) = .ok "http://h/p" := rfl
    have hmasked : withoutSecrets bracketed.string ≠ "http://h/p" := by decide +kernel
    exact hmasked (Except.ok.inj (htext.trans hplain))

end WebAddress

end Provision
