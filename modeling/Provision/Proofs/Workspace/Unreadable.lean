import Provision.Proofs.Resolution.Calls
import Provision.Proofs.Resolution.Closure
import Provision.Proofs.Resolution.Emptiness
import Provision.Proofs.Workspace.Separation

namespace Provision

open Provision.Resolution Provision.Operation

/-- Repositories that are the same, but some of them list no units. -/
def Resolution.Access.emptied {σ : Type} (A : Access σ) (gone : Source → Prop)
    [DecidablePred gone] : Access σ :=
  { A with list := fun s => if gone s then pure [] else A.list s }

namespace Workspace

/-- Whenever a repository is read in the course of a run, something is missing. -/
def Unreadable (w : Workspace) (s : Source) : Prop :=
  ∀ v, Reaches access w v → ∃ f v', list s v = .error f v' ∧ f.isMissing

/-- Something is missing when a repository is read, and that it was read shows only in the messages and
in what the client has for some addresses. -/
def Misses (urls : String → Prop) (s : Source) (x : Workspace) : Prop :=
  ∃ f x', list s x = .error f x' ∧ f.isMissing ∧ x.Apart urls x'

def HasAddress (w : Workspace) (gone : Source → Prop) (url : String) : Prop :=
  ∃ s, gone s ∧ ∃ r, w.repository? s = some r ∧ r.identity = .remote url

/-- Worlds of a run that are apart at the addresses of some repositories. -/
structure Parted (w : Workspace) (gone : Source → Prop) (x z : Workspace) : Prop where
  left : Reaches access w x
  right : Reaches access w z
  apart : x.Apart (w.HasAddress gone) z

variable {gone : Source → Prop} {urls : String → Prop} {url : String} {s : Source}
  {r : Repository} {w v x z : Workspace}

theorem Misses.bare (h : Misses urls s x) : Bare (list s x) := by
  obtain ⟨f, x', hlist, hf, -⟩ := h
  rw [hlist]
  exact hf

theorem Misses.apart (h : Misses urls s x) : x.Apart urls (endWorld (list s x)) := by
  obtain ⟨f, x', hlist, -, hapart⟩ := h
  rwa [hlist]

/-- In all worlds of a run there is a repository of the same identity behind a reference. -/
theorem exists_repository_of_reaches (hx : Reaches access w x) (hv : Reaches access w v)
    (hr : x.repository? s = some r) :
    ∃ q, v.repository? s = some q ∧ q.identity = r.identity := by
  have hidentity := (identity_of_reaches hv s).trans (identity_of_reaches hx s).symm
  rw [hr, Option.map_some] at hidentity
  exact Option.map_eq_some_iff.mp hidentity

theorem misses_of_unreadable (h : w.Unreadable s) (hs : gone s) (hx : Reaches access w x) :
    Misses (w.HasAddress gone) s x := by
  obtain ⟨f, x', hlist, hf⟩ := h x hx
  refine ⟨f, x', hlist, hf, apart_of_missing hlist hf fun r url hr hi => ?_⟩
  obtain ⟨q, hq, hqr⟩ := exists_repository_of_reaches hx .start hr
  exact ⟨s, hs, q, hq, hqr.trans hi⟩

/-- A repository that was not read before cannot be read either if it shares the address of one that
cannot. -/
theorem misses_of_hasAddress (h : ∀ t, gone t → w.Unreadable t) (hx : Reaches access w x)
    (hr : x.repository? s = some r) (hm : r.memo = none) (hi : r.identity = .remote url)
    (hurl : w.HasAddress gone url) : Misses (w.HasAddress gone) s x := by
  obtain ⟨t, ht, q, hq, hqi⟩ := hurl
  obtain ⟨f, x', hlist, hf, hapart⟩ := misses_of_unreadable (h t ht) ht hx
  obtain ⟨p, hp, hpq⟩ := exists_repository_of_reaches .start hx hq
  exact ⟨f, x', list_of_missing_address hlist hf hp (hpq.trans hqi) hr hm hi, hf, hapart⟩

theorem describe_of_misses (h : Misses urls s x) (hx : Reaches access w x)
    (hv : Reaches access w v) : ∃ name, describe s v = .ok name v := by
  obtain ⟨f, x', hlist, hf, -⟩ := h
  obtain ⟨r, hr, -, -⟩ := of_missing_list hlist hf
  obtain ⟨q, hq, hqr⟩ := exists_repository_of_reaches hx hv hr
  exact describe_returns hq fun url hi =>
    exists_publicText_of_missing hlist hf hr (hqr.symm.trans hi)

namespace Parted

theorem sameEnd (h : w.Parted gone x z) {q : Question}
    (hsame : SameEnd (Apart (w.HasAddress gone)) (access.ask q z) (access.ask q x)) :
    SameEnd (w.Parted gone) (access.ask q z) (access.ask q x) := by
  have hx := reaches_ask h.left q
  have hz := reaches_ask h.right q
  cases hask : access.ask q x with
  | ok a x' | error f x' =>
    rw [hask] at hsame hx
    obtain ⟨z', hapart, hz'⟩ := hsame
    rw [hz'] at hz
    exact ⟨z', ⟨hx, hz, hapart⟩, hz'⟩

theorem congruent {q : Question}
    (h : Congruent (Apart (w.HasAddress gone)) (access.ask q)) :
    Congruent (w.Parted gone) (access.ask q) :=
  ⟨fun _ _ => trivial, fun x z _ hxz => hxz.sameEnd (h.same x z trivial hxz.apart)⟩

theorem note_left (h : w.Parted gone x z) (m : Log.Record) : w.Parted gone (x.note m) z :=
  ⟨h.left.note m, h.right, (apart_note m x).symm.trans h.apart⟩

theorem note_right (h : w.Parted gone x z) (m : Log.Record) : w.Parted gone x (z.note m) :=
  ⟨h.left, h.right.note m, h.apart.trans (apart_note m z)⟩

theorem quiet_describe (h : w.Parted gone x z) (hs : Misses urls s x) :
    Quiet (w.Parted gone) (describe s) ∧ Quiet (fun v u => w.Parted gone u v) (describe s) := by
  constructor <;> intro u v huv
  · obtain ⟨name, hname⟩ := describe_of_misses hs h.left huv.left
    exact ⟨name, u, hname, huv⟩
  · obtain ⟨name, hname⟩ := describe_of_misses hs h.left huv.right
    exact ⟨name, u, hname, huv⟩

end Parted

variable [DecidablePred gone]

/-- Repositories that cannot be read correspond to repositories without units. -/
theorem rivals_emptied (h : ∀ s, gone s → w.Unreadable s) :
    access.Rivals (w.Parted gone) (access.emptied gone) where
  list s x z hxz := by
    by_cases hs : gone s
    case pos =>
      have hx : Misses (w.HasAddress gone) s x := misses_of_unreadable (h s hs) hs hxz.left
      have hempty : (access.emptied gone).list s = pure [] := if_pos hs
      rw [hempty]
      have hend : w.Parted gone (endWorld (access.list s x)) z :=
        ⟨hxz.left.list s, hxz.right, hx.apart.symm.trans hxz.apart⟩
      exact Or.inr ⟨hx.bare, rfl, hend, hxz.quiet_describe hx⟩
    case neg =>
      have hsame : (access.emptied gone).list s = access.list s := if_neg hs
      rw [hsame]
      by_cases hshared : ∃ r url, x.repository? s = some r ∧ r.memo = none ∧
        r.identity = .remote url ∧ w.HasAddress gone url
      case pos =>
        -- What the clients have for the address may differ, but something is missing there for both.
        obtain ⟨r, url, hr, hm, hi, hurl⟩ := hshared
        have hx := misses_of_hasAddress h hxz.left hr hm hi hurl
        have hrz : z.repository? s = some r := (hxz.apart.repository s).symm.trans hr
        have hz := misses_of_hasAddress h hxz.right hrz hm hi hurl
        have hend : w.Parted gone (endWorld (access.list s x)) (endWorld (access.list s z)) :=
          ⟨hxz.left.list s, hxz.right.list s, (hx.apart.symm.trans hxz.apart).trans hz.apart⟩
        exact Or.inr ⟨hx.bare, hz.bare, hend, hxz.quiet_describe hx⟩
      case neg =>
        have hlist : SameEnd (Apart (w.HasAddress gone)) (Operation.list s z) (Operation.list s x) :=
          hxz.apart.list s fun r url hr hm hi hurl => hshared ⟨r, url, hr, hm, hi, hurl⟩
        exact Or.inl (hxz.sameEnd (q := .list s) hlist)
  materialize u := Parted.congruent (q := .materialize u)
    (congruent_materialize (corresponding_apart _).toLegible u)
  describe s := Parted.congruent (q := .describe s)
    (congruent_describe (corresponding_apart _).toLegible s)
  left m _ _ hxz := hxz.note_left m
  right m _ _ hxz := hxz.note_right m

def Offline (s : Source) (w : Workspace) : Prop :=
  ∃ r, w.repository? s = some r ∧ ∃ name, r.identity = .memory name ∧ r.isOffline ∧ r.memo = none

theorem lasting_offline (s : Source) : Lasting (Offline s) where
  note m w h := by rwa [Offline, repository?_note]
  http _ _ h := h
  rename _ _ _ h := exists_repository_modify h fun _ _ _ hr => hr

theorem load_of_offline {name : String} (hi : r.identity = .memory name) (ho : r.isOffline)
    (t : Source) : load t r = throw (.offline name) := by
  unfold load
  rw [hi]
  exact if_pos ho

/-- A repository in memory that cannot be read at the start cannot be read throughout the run. -/
theorem unreadable_of_offline (h : w.Offline s) : w.Unreadable s := by
  have hkeeps (t : Source) : Keeps (Offline s) (Operation.list t) := by
    refine keeps_list_of (lasting_offline s) fun w r us v hw hr _ hl hv => ?_
    refine exists_repository_modify hv fun _ ht _ _ => ?_
    -- Nothing was read there.
    obtain ⟨q, hq, name, hi, ho, -⟩ := hw
    obtain rfl : q = r := Option.some.inj (hq.symm.trans ((repository?_congr ht w).symm.trans hr))
    rw [load_of_offline hi ho] at hl
    cases hl
  intro v hv
  obtain ⟨r, hr, name, hi, ho, hm⟩ := of_reaches (lasting_offline s) hkeeps hv h
  refine ⟨.offline name, v, ?_, rfl⟩
  rw [list_of_unread hr hm, fetch, load_of_offline hi ho]
  rfl

end Workspace

namespace Resolution

variable {gone : Source → Prop} [DecidablePred gone] {S : Setting} {requested : List Installable}
  {w : Workspace}

theorem answerOf_of_sameEnd {σ τ α : Type} {rel : σ → τ → Prop} {e : EStateM.Result Failure σ α}
    {e' : EStateM.Result Failure τ α} (h : SameEnd rel e' e) : answerOf e' = answerOf e := by
  cases e with
  | ok a w | error f w =>
    obtain ⟨v, -, rfl⟩ := h
    rfl

/-- A run comes to the same result or fails alike if repositories that cannot be read have no units
instead. -/
theorem resolve_emptied (h : ∀ s, gone s → w.Unreadable s) :
    answerOf (resolve (access.emptied gone) S requested w) =
      answerOf (resolve access S requested w) := by
  have hrivals : access.Rivals (w.Parted gone) (access.emptied gone) := Workspace.rivals_emptied h
  exact answerOf_of_sameEnd (hrivals.resolve S ⟨.start, .start, Workspace.apart_refl w⟩)

namespace Sample

def dark : Workspace where
  repositories := #[{ memory "first" [plain] with isOffline := true },
    { memory "second" [library second] with isOffline := true }, memory "third" [library third]]

end Sample

open Sample

/-- In full mode the package comes from the last repository, and in slice mode from none; without the
last repository a run fails in full mode. -/
theorem resolve_emptied_dark :
    (∀ s, s ∈ [first, second] → dark.Unreadable s) ∧
    answerOf (resolve (access.emptied (· ∈ [first, second])) ⟨[second, third], .full⟩ [plain] dark) =
      .ok ⟨.full, ⟨[plain, library third]⟩, {}, {}, []⟩ ∧
    answerOf (resolve (access.emptied (· ∈ [first, second])) ⟨[second, third], .slice⟩ [plain] dark) =
      .ok ⟨.slice, ⟨[plain]⟩, {}, {}, [asks "p"]⟩ ∧
    answerOf (resolve (access.emptied (· ∈ [first, second])) ⟨[second], .full⟩ [plain] dark) =
      .error (.unresolved "plain[first]" (asks "p")) := by
  have hgone : ∀ s, s ∈ [first, second] → dark.Unreadable s := by
    simp only [List.mem_cons, List.not_mem_nil, or_false, forall_eq_or_imp, forall_eq]
    exact ⟨Workspace.unreadable_of_offline ⟨_, rfl, "first", rfl, rfl, rfl⟩,
      Workspace.unreadable_of_offline ⟨_, rfl, "second", rfl, rfl, rfl⟩⟩
  obtain ⟨w₁, hfull⟩ : ∃ w', resolve access ⟨[second, third], .full⟩ [plain] dark =
      .ok ⟨.full, ⟨[plain, library third]⟩, {}, {}, []⟩ w' :=
    resolve_of_resultWithin? (n := 10) rfl
  obtain ⟨w₂, hslice⟩ : ∃ w', resolve access ⟨[second, third], .slice⟩ [plain] dark =
      .ok ⟨.slice, ⟨[plain]⟩, {}, {}, [asks "p"]⟩ w' :=
    resolve_of_resultWithin? (n := 10) rfl
  obtain ⟨w₃, hfails⟩ : ∃ w', resolve access ⟨[second], .full⟩ [plain] dark =
      .error (.unresolved "plain[first]" (asks "p")) w' :=
    resolve_of_failureWithin? (n := 10) rfl
  refine ⟨hgone, ?_, ?_, ?_⟩
  · rw [resolve_emptied hgone, hfull]
    rfl
  · rw [resolve_emptied hgone, hslice]
    rfl
  · rw [resolve_emptied hgone, hfails]
    rfl

end Resolution

end Provision
