import Sinkhole.Proofs.Fetch
import Sinkhole.Proofs.Store.Registered

/-! Sources that are registered again.

A registration is about the source at its location and no other. It takes the validators
of that source away when it changes how the list is read, since what is stored was read
the other way. Without validators no fetch takes the content for unchanged by them: a
server is asked for all of it, and so is the forge's server, whatever the forge says, and
a file is read again (`Afresh`). -/
namespace Sinkhole

namespace Fetch

open Work (Sends upon)

/-- A fetch of the source has nothing to go by: it sends no condition to a server, takes no file
for unchanged, and asks for a list whatever time its forge gives. -/
structure Afresh (x : Source) : Prop where
  unconditional : ∀ {σ : Type} (w : World σ) (s : Settings),
    Sends (fun q => q.ifNoneMatch = none ∧ q.ifModifiedSince = none) (fetch w s x)
  file : ∀ {σ : Type} (w : World σ) (s : Settings) {path : String} {facts : FileFacts}
    {u : Updater σ}, x.place = .ok (.local path) → (w.facts path u.world).answer = .ok facts →
    (upon (fetch w s x) u).1 = .ok (.downloaded
      { content := .file path, lastModified := facts.modified, size := facts.size })
  forge : ∀ {σ : Type} (w : World σ) (s : Settings) {url : Url} {modified : Time.Instant}
    {u u' : Updater σ}, x.place = .ok (.remote url) →
    upon (forgeTime w s url) u = (.ok (some modified), u') →
    ∃ deeds, (upon (fetch w s x) u).2.deeds =
      u'.deeds ++ .sent (listRequest s x url false) :: deeds

/-- A source without validators is fetched afresh. -/
theorem afresh_of_none {x : Source} (htag : x.entityTag = none)
    (htime : x.appliedModified = none) : Afresh x where
  unconditional := by
    intro σ w s
    refine (fetch_inquiry w s x).sends.mono fun q hq => ?_
    cases hq with
    | conditional at_ url =>
      simp [listRequest, htag, Source.applied, htime]
    | plain method url => exact ⟨rfl, rfl⟩
  file := by
    intro σ w s path facts u hplace hfacts
    have hchanged : isUnchanged x facts = false := by
      simp only [isUnchanged, Source.applied, htime, Option.map_none]
      cases facts.modified <;> rfl
    rw [fetch_local w s hplace, upon_fetchLocal w x hfacts, hchanged, if_neg Bool.false_ne_true]
  forge := by
    intro σ w s url modified u u' hplace hforge
    rw [fetch_forge hplace hforge, Source.applied, htime, Option.map_none, Option.any_none,
      if_neg Bool.false_ne_true, Work.upon_map]
    exact download_begins w s x url u'

end Fetch

namespace Store

open Fetch (Afresh)

/-- A source that was there as it is after a registration at its location. -/
structure Renewed (s : Store) (x : Source) (r : Registration) (x' : Source) (id : Int)
    (after : Store) : Prop where
  told : id = x.id
  id : x'.id = x.id
  registration : x'.registration = r.placed
  remoteModified : x'.remoteModified = x.remoteModified
  sizeHint : x'.sizeHint = x.sizeHint
  kept : SameRole x r → x'.entityTag = x.entityTag ∧ x'.appliedModified = x.appliedModified
  dropped : ¬SameRole x r → x'.entityTag = none ∧ x'.appliedModified = none ∧ Afresh x'
  /-- No other source changes, and nothing that is not about sources. -/
  others : after.sources = s.sources.map fun y => if y.id = x.id then x' else y
  same : after = { s with sources := after.sources, lastId := after.lastId }

theorem upsert_renewed {s : Store} (hd : s.Distinct) {x : Source} (hx : x ∈ s.sources)
    {r : Registration} (hplace : x.location = placeOf r) :
    Renewed s x r (refreshed x r) (s.upsert r).1 (s.upsert r).2 where
  told := by
    unfold upsert
    split
    · rename_i old hfind
      have hold : old.location = placeOf r := by simpa using List.find?_some hfind
      rw [hd.eq_of_location (List.mem_of_find?_eq_some hfind) hx (hold.trans hplace.symm)]
    · rename_i hnone
      exact absurd hplace (by simpa using List.find?_eq_none.mp hnone x hx)
  id := rfl
  registration := refreshed_registration hplace
  remoteModified := rfl
  sizeHint := rfl
  kept := refreshed_sameRole
  dropped := fun hrole =>
    have hnone := refreshed_otherRole hrole
    ⟨hnone.1, hnone.2, Fetch.afresh_of_none hnone.1 hnone.2⟩
  others := by
    rw [hd.upsert_sources ⟨x, hx, hplace⟩]
    refine List.map_congr_left fun y hy => ?_
    by_cases hid : y.id = x.id
    · rw [hd.numbered.keyed.eq_of_id hy hx hid, if_pos hplace, if_pos rfl]
    · rw [if_neg hid, if_neg fun hloc => hid ?_]
      rw [hd.eq_of_location hy hx (hloc.trans hplace.symm)]
  same := by
    unfold upsert
    split <;> rfl

/-- **A source that is registered again keeps all but what its list may no longer be judged by**,
and a list of registrations that is registered twice leaves the sources as it does once. -/
theorem upsert_renews {s : Store} (hd : s.Distinct) :
    (∀ x ∈ s.sources, ∀ r, x.location = placeOf r →
      ∃ x', Renewed s x r x' (s.upsert r).1 (s.upsert r).2) ∧
    ∀ rs, ((s.upsertAll rs).upsertAll rs).sources = (s.upsertAll rs).sources :=
  ⟨fun _ hx _ hplace => ⟨_, upsert_renewed hd hx hplace⟩, hd.upsertAll_twice⟩

/-- A list that was taken over once. -/
def takenAds : Source :=
  { id := 2, label := "Ads", location := "https://lists.test/ads", entityTag := some "v1"
    remoteModified := some 5, appliedModified := some 5, sizeHint := 9 }

def stocked : Store :=
  { sources := [userSource, takenAds], lastId := 2
    items := [{ source := 2, generation := 1, host := "ads.test", kind := Kind.blocked.number }]
    table := [], active := 1 }

def allowAds : Registration :=
  { label := "Ads", location := " https://lists.test/ads ", allowList := true }

/-- The list, as an allow list and back again, and a list that is new. -/
def toggling : List Registration :=
  [allowAds, { label := "Spam", location := "/lists/spam" }, { allowAds with allowList := false }]

theorem upsert_renews_toggling :
    (∃ x', Renewed stocked takenAds allowAds x' (stocked.upsert allowAds).1
        (stocked.upsert allowAds).2 ∧ Afresh x') ∧
      ((stocked.upsertAll toggling).upsertAll toggling).sources =
        (stocked.upsertAll toggling).sources ∧
      (stocked.upsertAll toggling).sources.map (·.entityTag) = [none, none, none] := by
  have hd : stocked.Distinct := ⟨⟨by decide, by decide⟩, by decide⟩
  obtain ⟨hone, hall⟩ := upsert_renews hd
  obtain ⟨x', hx'⟩ := hone takenAds (by decide) allowAds (by decide +kernel)
  exact ⟨⟨x', hx', (hx'.dropped (by decide)).2.2⟩, hall toggling, by decide +kernel⟩

end Store

end Sinkhole
