import Sinkhole.Proofs.History.Validators

/-! Lists in a repository of a forge, fetched again.

A forge says when a list was last changed, as exactly as it likes. The store keeps that
time in whole microseconds, and a fetch compares the forge's time with what was kept.
A time that has more digits is later than itself as the store keeps it. So a list that
was taken over under such a time is downloaded on every fetch, though the forge reports
no change, and for any other time it is not even asked for (`course_redated`). -/
namespace Sinkhole

/-- The store makes no earlier instant of it: it has whole microseconds, or it lies in a leap
second, which the store counts to the second after it. -/
def Time.Instant.IsKept (t : Time.Instant) : Prop := t.nanos % 1000 = 0 ∨ 1000000000 ≤ t.nanos

instance : DecidablePred Time.Instant.IsKept := fun _ => inferInstanceAs (Decidable (_ ∨ _))

theorem Time.Instant.le_ofMicros_micros {t : Time.Instant} :
    t.le (.ofMicros t.micros) = true ↔ t.IsKept := by
  rw [le, Bool.or_eq_true, Bool.and_eq_true, decide_eq_true_iff, decide_eq_true_iff,
    decide_eq_true_iff, IsKept, ofMicros, micros]
  dsimp only
  omega

namespace History

open Update (Setup Visit)
open Work (upon)

variable {σ : Type}

theorem course_vouched (world : σ) (acts : List (Act σ)) :
    Vouched (course world acts).2 (course world acts).1.store :=
  (course_induction (p := fun (u : Updater σ) l => Tallies l u.store ∧ Vouched l u.store) world
    ⟨.empty, fun source hs => by
      rw [List.mem_singleton.mp hs]
      exact .untrusted none rfl rfl⟩
    (fun _ _ a hu hp => ⟨perform_tallies hu hp.1 a, perform_vouched hu hp.1 hp.2 a⟩) acts).1.2

/-- The content was fetched from `url` while the forge gave `modified` as the time of its last
change. -/
def TakenUnder (url : Url) (modified : Time.Instant) (t : Taken σ) : Prop :=
  ∃ (s : Setup) (source : Source) (u : Updater σ), source.place = .ok (.remote url) ∧
    contentAt t.world s source u = some t ∧
    (upon (Fetch.forgeTime t.world s.fetch url) u).1 = .ok (some modified)

theorem contentAt_world {w : World σ} {s : Setup} {source : Source} {u : Updater σ} {t : Taken σ}
    (h : contentAt w s source u = some t) : t.world = w := by
  unfold contentAt at h
  split at h
  · split at h
    · rw [← Option.some.inj h]
    · cases h
  · cases h

/-- Such content is dated by the forge. -/
theorem TakenUnder.lastModified {url : Url} {modified : Time.Instant} {t : Taken σ}
    (h : TakenUnder url modified t) : t.download.lastModified = some modified := by
  obtain ⟨s, source, u, hplace, hcontent, hforge⟩ := h
  have hfetch := Fetch.fetch_forge hplace (Work.upon_of_fst hforge)
  rw [contentAt, hfetch] at hcontent
  by_cases hunchanged : source.applied.any (modified.le ·) = true
  · rw [if_pos hunchanged] at hcontent
    cases hcontent
  rw [if_neg hunchanged, Work.upon_map] at hcontent
  generalize upon (Fetch.download _ _ _ _ _) _ = ended at hcontent
  obtain ⟨r, u'⟩ := ended
  cases r with
  | error e => cases hcontent
  | ok fetched =>
    cases fetched with
    | unchanged at? => cases hcontent
    | downloaded d =>
      simp only [Except.map, Fetch.Fetched.at] at hcontent
      split at hcontent
      · exact (congrArg (·.download.lastModified) (Option.some.inj hcontent)).symm
      · cases hcontent

/-- **After every history a list in a forge's repository is judged by the time it was taken over
under.** Let the content that is trusted be fetched while the forge gave `modified`, and let the
forge give it again. If that time is one that the store keeps, the list is unchanged, and the forge
is all that was asked. Otherwise the list is asked for again, without conditions. -/
theorem course_redated (world : σ) (acts : List (Act σ)) {source : Source} {url : Url}
    {modified : Time.Instant} {t : Taken σ} {earlier : List (Taken σ)}
    (hsource : source ∈ (course world acts).1.store.sources)
    (hplace : source.place = .ok (.remote url))
    (htrusted : ((course world acts).2.account source.id).trusted = t :: earlier)
    (htaken : TakenUnder url modified t) (w : World σ) (s : Fetch.Settings) {v v' : Updater σ}
    (hforge : upon (Fetch.forgeTime w s url) v = (.ok (some modified), v')) :
    (modified.IsKept →
      upon (Fetch.fetch w s source) v = (.ok (.unchanged (some modified)), v')) ∧
    (¬modified.IsKept → ∃ deeds, (upon (Fetch.fetch w s source) v).2.deeds =
      v'.deeds ++ .sent (Fetch.listRequest s source url false) :: deeds) := by
  have happlied : source.applied = some (.ofMicros modified.micros) := by
    have htime := (course_vouched world acts source hsource).time
    rw [Account.time?, htrusted, List.findSome?_cons, htaken.lastModified] at htime
    rw [Source.applied, htime]
    rfl
  rw [Fetch.fetch_forge hplace hforge, happlied, Option.any_some]
  constructor
  · intro hkept
    rw [if_pos (Time.Instant.le_ofMicros_micros.mpr hkept)]
  · intro hlost
    rw [if_neg fun hle => hlost (Time.Instant.le_ofMicros_micros.mp hle), Work.upon_map]
    exact Fetch.download_begins w s source url v'

/-- A list on the raw host, and a forge that gives `date` for its last commit. -/
def committed (date : String) : World Unit :=
  { facts := fun _ _ => { answer := .error "no such file", world := () }
    openFile := fun _ _ => { answer := .error "no such file", world := () }
    exchange := fun r _ =>
      { answer := .ok
          { status := 200
            body :=
              if r.url.hostText? = some Fetch.rawHost then [97, 46, 98, 10]
              else
                ("[\x7b\"commit\":\x7b\"committer\":\x7b\"date\":\"" ++ date ++
                  "\"\x7d\x7d\x7d]").toUTF8.toList }
        world := () }
    resolves := fun _ => true }

/-- That list as it is registered. -/
def rawList : Source :=
  { id := 2, label := "list", location := "http://raw.githubusercontent.com/o/r/main/hosts" }

def rawUrl : Url :=
  { scheme := "http".toList, site := some (.domain Fetch.rawHost), path := "/o/r/main/hosts".toList }

def registration : Registration := { label := rawList.label, location := rawList.location }

/-- The list is registered and taken over. -/
def takenOnce (date : String) : List (Act Unit) :=
  [.register registration, .updateOne (committed date) Update.plain 2 none]

/-- The updater between the two. -/
def registered : Updater Unit := (course () [.register registration]).1

/-- What is taken over is all that is then on record of the list. -/
theorem takenOnce_trusted (date : String) (modified : Time.Instant)
    (heffect : Update.hasTakenEffect
      (Update.updateOne (committed date) Update.plain 2 none registered).1 = true)
    (hcontent : (contentAt (committed date) Update.plain rawList
      (Update.atFetch none rawList registered)).isSome = true)
    (hforge : (upon (Fetch.forgeTime (committed date) Update.plain.fetch rawUrl)
      (Update.atFetch none rawList registered)).1 = .ok (some modified)) :
    ∃ t, ((course () (takenOnce date)).2.account 2).trusted = [t] ∧
      TakenUnder rawUrl modified t := by
  obtain ⟨t, ht⟩ := Option.isSome_iff_exists.mp hcontent
  refine ⟨t, ?_, Update.plain, rawList, Update.atFetch none rawList registered,
    by decide +kernel, ?_, ?_⟩
  · have hrun : (course () (takenOnce date)).2 =
        ((course () [.register registration]).2).recordOne registered (committed date) Update.plain 2
          none := by
      simp only [course, takenOnce, registered, List.foldl_cons, List.foldl_nil, Ledger.record]
    have haccount : (course () [.register registration]).2.account 2 = {} := by
      have hnew : (fresh ()).store.sources.find? (·.location == Store.placeOf registration) =
        none := by decide +kernel
      simp only [course, List.foldl_cons, List.foldl_nil, Ledger.record, Ledger.recordRole, hnew]
    have hsource : registered.store.source 2 = .ok rawList := by decide +kernel
    have huser : rawList.isUser = false := by decide
    have henabled : rawList.enabled = true := by decide
    rw [hrun, Ledger.recordOne, hsource]
    simp only [heffect, huser, henabled, ht, Ledger.amend, haccount, Account.take,
      Bool.not_true, Bool.or_self, Bool.false_eq_true, if_false, if_true]
  · rw [contentAt_world ht]
    exact ht
  · rw [contentAt_world ht]
    exact hforge

/-- The list as it is known after that. -/
def takenList : Source :=
  { rawList with
    remoteModified := some 1709296205000000
    appliedModified := some 1709296205000000
    sizeHint := 4 }

def wholeDate : String := "2024-03-01T12:30:05Z"

def finerDate : String := "2024-03-01T12:30:05.0000005Z"

/-- A date with seven digits behind the second makes for a download each time, and one with none
does not. -/
theorem course_redated_assorted :
    (upon (Fetch.fetch (committed wholeDate) Update.plain.fetch takenList)
        (course () (takenOnce wholeDate)).1).1 = .ok (.unchanged (some ⟨1709296205, 0⟩)) ∧
    ∃ v' deeds,
      upon (Fetch.forgeTime (committed finerDate) Update.plain.fetch rawUrl)
          (course () (takenOnce finerDate)).1 = (.ok (some ⟨1709296205, 500⟩), v') ∧
      (upon (Fetch.fetch (committed finerDate) Update.plain.fetch takenList)
          (course () (takenOnce finerDate)).1).2.deeds =
        v'.deeds ++ .sent (Fetch.listRequest Update.plain.fetch takenList rawUrl false) :: deeds := by
  have hplace : takenList.place = .ok (.remote rawUrl) := by decide +kernel
  have hid : takenList.id = 2 := rfl
  constructor
  · obtain ⟨t, htrusted, htaken⟩ := takenOnce_trusted wholeDate ⟨1709296205, 0⟩
      (by decide +kernel) (by decide +kernel) (by decide +kernel)
    rw [← hid] at htrusted
    have hknown : takenList ∈ (course () (takenOnce wholeDate)).1.store.sources := by
      decide +kernel
    have hforge : (upon (Fetch.forgeTime (committed wholeDate) Update.plain.fetch rawUrl)
        (course () (takenOnce wholeDate)).1).1 = .ok (some ⟨1709296205, 0⟩) := by decide +kernel
    obtain ⟨hwhole, -⟩ := course_redated () _ hknown hplace htrusted htaken (committed wholeDate)
      Update.plain.fetch (Work.upon_of_fst hforge)
    rw [hwhole (by decide)]
  · obtain ⟨t, htrusted, htaken⟩ := takenOnce_trusted finerDate ⟨1709296205, 500⟩
      (by decide +kernel) (by decide +kernel) (by decide +kernel)
    rw [← hid] at htrusted
    have hknown : takenList ∈ (course () (takenOnce finerDate)).1.store.sources := by
      decide +kernel
    have hforge : (upon (Fetch.forgeTime (committed finerDate) Update.plain.fetch rawUrl)
        (course () (takenOnce finerDate)).1).1 = .ok (some ⟨1709296205, 500⟩) := by
      decide +kernel
    obtain ⟨-, hfiner⟩ := course_redated () _ hknown hplace htrusted htaken (committed finerDate)
      Update.plain.fetch (Work.upon_of_fst hforge)
    obtain ⟨deeds, hdeeds⟩ := hfiner (by decide)
    exact ⟨_, deeds, Work.upon_of_fst hforge, hdeeds⟩

end History

end Sinkhole
