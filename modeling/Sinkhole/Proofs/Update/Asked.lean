import Sinkhole.Update.Survey
import Sinkhole.Proofs.Update.Adopted
import Sinkhole.Proofs.Update.Checked

/-! What a check finds out about a file, and what a fetch would make of it.

A check comes to one source after the other, and while it is at one the world is in some
state (`ComesTo`). Both it and a fetch judge a file by its time, to the microsecond; a
fetch looks at the size as well, and does without a time. So whenever a check says that
there is an update a fetch would bring it, and a fetch that brings more than a check
announced does so for one of two reasons (`Unseen`). -/
namespace Sinkhole.Update

open Work (upon)

variable {σ : Type} {w : World σ} {s : Setup} {source : Source} {u x : Updater σ}
variable {path : String} {facts : FileFacts}

/-! ### One source -/

/-- A source is asked at the state of the world in which a check comes to it, and what it reports
is written down. -/
theorem upon_checkSource_noted (w : World σ) (s : Setup) (source : Source)
    (hgoing : u.control.stopped = false) :
    ∃ progress u', upon (checkSource w s source) u =
        (.ok (some (findingOf source
          (upon (Fetch.probe w s.fetch source) { u with progress }).1)), u') ∧
      u'.store = noteReply u.store source
        (upon (Fetch.probe w s.fetch source) { u with progress }).1 := by
  refine ⟨u.progress.setCurrentItem source.label, ?_⟩
  have hstore : (upon (Fetch.probe w s.fetch source)
      { u with progress := u.progress.setCurrentItem source.label }).2.store = u.store :=
    ((probe_inquiry w s source).confined _).store.eq_of_none
  rw [checkSource, Work.upon_bind_of_ok (Work.upon_isStopped u), hgoing]
  simp only [Bool.false_eq_true, if_false]
  rw [Work.upon_bind_of_ok (Work.upon_onProgress _ u),
    Work.upon_bind_of_ok (Work.upon_outcome _ _), Work.upon_bind_of_ok (Work.upon_onProgress _ _)]
  cases (upon (Fetch.probe w s.fetch source)
    { u with progress := u.progress.setCurrentItem source.label }).1 with
  | error e => exact ⟨_, rfl, hstore⟩
  | ok reported => exact ⟨_, rfl, congrArg (·.setRemoteModified source.id reported) hstore⟩

theorem upon_checkSource (w : World σ) (s : Setup) (source : Source)
    (hgoing : u.control.stopped = false) :
    ∃ progress u', upon (checkSource w s source) u =
      (.ok (some (findingOf source
        (upon (Fetch.probe w s.fetch source) { u with progress }).1)), u') := by
  obtain ⟨progress, u', hasked, -⟩ := upon_checkSource_noted w s source hgoing
  exact ⟨progress, u', hasked⟩

/-- After a stop no source is asked. -/
theorem upon_checkSource_stopped (w : World σ) (s : Setup) (source : Source)
    (hstopped : u.control.stopped = true) :
    upon (checkSource w s source) u = (.ok none, u) := by
  rw [checkSource, Work.upon_bind_of_ok (Work.upon_isStopped u), hstopped]
  rfl

/-! ### Files -/

theorem probe_file (hplace : source.place = .ok (.local path))
    (hfacts : (w.facts path u.world).answer = .ok facts) :
    (upon (Fetch.probe w s.fetch source) u).1 = .ok facts.modified := by
  obtain ⟨u', hread⟩ := Fetch.upon_fileFacts w path u
  rw [hfacts] at hread
  rw [Fetch.probe, Work.upon_bind_of_ok (Fetch.upon_place hplace u)]
  dsimp only
  rw [Work.upon_bind_of_ok hread]
  rfl

/-- A reason to fetch a file that its time does not give, though content of the source was taken
over before. -/
inductive Unseen (source : Source) (facts : FileFacts) : Prop where
  /-- There is no time to compare. -/
  | undated {applied} (known : source.applied = some applied) (none : facts.modified = none)
  /-- The time is no later, and the size is another. -/
  | resized {applied now} (known : source.applied = some applied) (time : facts.modified = some now)
      (early : now.isAfter applied = false) (size : facts.size ≠ source.sizeHint)

/-- A fetch takes a file for changed where a check does, and where the check cannot see it. -/
theorem isUnchanged_iff : Fetch.isUnchanged source facts = false ↔
    isOutdated facts.modified source = true ∨ Unseen source facts := by
  cases known : source.applied with
  | none =>
    have hfetch : Fetch.isUnchanged source facts = false := by
      rw [Fetch.isUnchanged, known]
      cases facts.modified <;> rfl
    have hcheck : isOutdated facts.modified source = true := by
      unfold isOutdated
      rw [known]
    exact iff_of_true hfetch (.inl hcheck)
  | some applied =>
    cases time : facts.modified with
    | none =>
      refine iff_of_true ?_ (.inr (.undated known time))
      rw [Fetch.isUnchanged, known, time]
    | some now =>
      have hfetch : Fetch.isUnchanged source facts =
          (!now.isAfter applied && facts.size == source.sizeHint) := by
        rw [Fetch.isUnchanged, known, time]
      have hcheck : isOutdated (some now) source = now.isAfter applied := by
        unfold isOutdated
        rw [known]
      rw [hfetch, hcheck]
      cases hafter : now.isAfter applied with
      | true => exact iff_of_true rfl (.inl rfl)
      | false =>
        by_cases hsize : facts.size = source.sizeHint
        · refine iff_of_false (by simp [hsize]) ?_
          rintro (hcheck | hunseen)
          · cases hcheck
          · cases hunseen with
            | undated _ hnone =>
              rw [time] at hnone
              cases hnone
            | resized _ _ _ hother => exact hother hsize
        · exact iff_of_true (by simp [hsize]) (.inr (.resized known time hafter hsize))

/-! ### Whole checks -/

/-- The first source is asked about, and then the others. -/
theorem upon_checkSources_cons {finding : Option Finding} {u₁ : Updater σ}
    (hfirst : upon (checkSource w s source) u = (.ok finding, u₁)) (rest : List Source) :
    upon (checkSources w s (source :: rest)) u =
      ((upon (checkSources w s rest) u₁).1.map (finding.toList ++ ·),
        (upon (checkSources w s rest) u₁).2) := by
  rw [checkSources, Work.upon_bind_of_ok hfirst, Work.upon_bind]
  cases upon (checkSources w s rest) u₁ with
  | mk r u₂ => cases r <;> rfl

/-- The updater when a check that is under way has asked about these sources, in this order. -/
def askedUpTo (w : World σ) (s : Setup) (u : Updater σ) (sources : List Source) : Updater σ :=
  (upon (checkSources w s sources)
    { u with progress := u.progress.setTotal .check u.store.enabledSources.length }).2

/-- A check of `u` comes to `source` when the updater is `x`. -/
def ComesTo (w : World σ) (s : Setup) (u : Updater σ) (source : Source) (x : Updater σ) : Prop :=
  ∃ front rest, sortBy (fun a b => w.turn a ≤ w.turn b) u.store.enabledSources =
    front ++ source :: rest ∧ x = askedUpTo w s (Work.started none u) front

/-- A check comes to every source that is on. -/
theorem exists_comesTo (w : World σ) (s : Setup) (h : source ∈ u.store.enabledSources) :
    ∃ x, ComesTo w s u source x := by
  obtain ⟨front, rest, hsplit⟩ := List.append_of_mem (mem_sortBy.mpr h)
  exact ⟨_, front, rest, hsplit, rfl⟩

/-- What was found out about a source is among the findings. -/
theorem mem_of_checkSources {front rest : List Source} {found : List Finding} {last : Updater σ}
    (h : upon (checkSources w s (front ++ source :: rest)) u = (.ok found, last)) :
    ∃ finding x', upon (checkSource w s source) (upon (checkSources w s front) u).2 =
      (.ok finding, x') ∧ ∀ f ∈ finding, f ∈ found := by
  induction front generalizing u found with
  | nil =>
    obtain ⟨finding, x', hfinding, hrest⟩ := Work.of_upon_bind h
    obtain ⟨more, _, -, hmore⟩ := Work.of_upon_bind hrest
    cases hmore
    exact ⟨finding, x', hfinding, fun f hf => List.mem_append_left _ (by simpa using hf)⟩
  | cons first front ih =>
    obtain ⟨finding, u₁, hfirst, hrest⟩ := Work.of_upon_bind h
    obtain ⟨more, _, hmore, hjoin⟩ := Work.of_upon_bind hrest
    cases hjoin
    obtain ⟨finding', x', hsource, hmem⟩ := ih hmore
    have hlast : (upon (checkSources w s (first :: front)) u).2 =
        (upon (checkSources w s front) u₁).2 := by rw [upon_checkSources_cons hfirst]
    exact ⟨finding', x', hlast ▸ hsource, fun f hf => List.mem_append_right _ (hmem f hf)⟩

/-- Where the hosts of the servers can be found, every source is asked about on its turn, and the
findings are put in order. -/
theorem upon_runCheck (w : World σ) (s : Setup) (u : Updater σ) : upon (runCheck w s) u =
    if isReachable w (u.store.enabledSources.filterMap Source.remoteHost?) then
      Prod.map (Except.map (sortBy fun a b => a.source ≤ b.source)) id
        (upon (checkSources w s (sortBy (fun a b => w.turn a ≤ w.turn b) u.store.enabledSources))
          { u with progress := u.progress.setTotal .check u.store.enabledSources.length })
    else (.error .noConnection, u) := by
  have hhosts : (u.store.enabledSources.filter (·.remoteHost?.isSome)).filterMap
      Source.remoteHost? = u.store.enabledSources.filterMap Source.remoteHost? := by
    rw [List.filterMap_filter]
    refine List.filterMap_congr fun x _ => ?_
    cases h : x.remoteHost? <;> rfl
  have hasked : upon (do
      Work.onProgress (·.setTotal .check u.store.enabledSources.length)
      let findings ← checkSources w s
        (sortBy (fun a b => w.turn a ≤ w.turn b) u.store.enabledSources)
      return sortBy (fun a b => a.source ≤ b.source) findings) u =
      Prod.map (Except.map (sortBy fun a b => a.source ≤ b.source)) id
        (upon (checkSources w s (sortBy (fun a b => w.turn a ≤ w.turn b) u.store.enabledSources))
          { u with progress := u.progress.setTotal .check u.store.enabledSources.length }) := by
    rw [Work.upon_bind_of_ok (Work.upon_onProgress _ u), Work.upon_bind]
    cases upon (checkSources w s _) _ with
    | mk r last => cases r <;> rfl
  rw [runCheck, Work.upon_get_bind, ← hasked]
  dsimp only
  cases hnone : u.store.enabledSources.filter (·.remoteHost?.isSome) with
  | nil =>
    rw [← hhosts, hnone]
    rfl
  | cons x rest =>
    rw [← hnone, ← hhosts]
    cases hreach : isReachable w ((u.store.enabledSources.filter
      (·.remoteHost?.isSome)).filterMap Source.remoteHost?) with
    | false =>
      have hfail : upon (preflight w (u.store.enabledSources.filter (·.remoteHost?.isSome))) u =
          (.error .noConnection, u) := by
        rw [preflight, hreach]
        rfl
      rw [if_pos (by rw [hnone]; rfl), Work.upon_bind_of_error hfail]
      rfl
    | true =>
      have hpass : upon (preflight w (u.store.enabledSources.filter (·.remoteHost?.isSome))) u =
          (.ok (), u) := by
        rw [preflight, hreach]
        rfl
      rw [if_pos (by rw [hnone]; rfl), Work.upon_bind_of_ok hpass]
      rfl

/-- The findings of a check are those of its sources, in another order. -/
theorem of_runCheck {findings : List Finding} (h : (upon (runCheck w s) u).1 = .ok findings) :
    ∃ found last, findings.Perm found ∧
      upon (checkSources w s (sortBy (fun a b => w.turn a ≤ w.turn b) u.store.enabledSources))
        { u with progress := u.progress.setTotal .check u.store.enabledSources.length } =
          (.ok found, last) := by
  rw [upon_runCheck] at h
  split at h
  · generalize upon (checkSources w s _) _ = ended at h ⊢
    obtain ⟨r, last⟩ := ended
    cases r with
    | error e => cases h
    | ok found =>
      cases h
      exact ⟨found, last, sortBy_perm found, rfl⟩
  · cases h

/-- A check that has findings has asked about every source on its turn. -/
theorem mem_of_comesTo (hrunning : u.running = false) {findings : List Finding}
    (h : (check w s u).1 = .ok findings) (hturn : ComesTo w s u source x) :
    ∃ finding x', upon (checkSource w s source) x = (.ok finding, x') ∧
      ∀ f ∈ finding, f ∈ findings := by
  rw [check] at h
  rcases Work.supervised_cases none (runCheck w s) u with ⟨hr, -⟩ | ⟨-, m, hrun⟩
  · rw [hrunning] at hr
    cases hr
  rw [hrun] at h
  obtain ⟨found, last, hperm, hasked⟩ := of_runCheck h
  obtain ⟨front, rest, hsplit, rfl⟩ := hturn
  rw [show (Work.started none u).store = u.store from rfl, hsplit] at hasked
  obtain ⟨finding, x', hfinding, hmem⟩ := mem_of_checkSources hasked
  exact ⟨finding, x', hfinding, fun f hf => hperm.mem_iff.mpr (hmem f hf)⟩

/-- **What a check says about a file, against a fetch at the moment it is asked about.** A check
comes to every source that is on. Unless it was stopped before, it has a finding for it; the fetch
brings the file if that says that there is an update, or for a reason that the check does not see,
and finds it unchanged otherwise. Where a file has no time, and content was taken over before, the
check says that there is none. -/
theorem check_file (hrunning : u.running = false) {findings : List Finding}
    (h : (check w s u).1 = .ok findings) (hsource : source ∈ u.store.enabledSources)
    (hplace : source.place = .ok (.local path)) :
    (∃ x, ComesTo w s u source x) ∧
      ∀ x facts, ComesTo w s u source x → x.control.stopped = false →
        (w.facts path x.world).answer = .ok facts →
        ∃ f ∈ findings, f.source = source.id ∧
          (facts.modified = none → source.applied ≠ none → f.updateAvailable = false) ∧
          ∀ v : Updater σ, v.world = x.world →
            ((upon (Fetch.fetch w s.fetch source) v).1 =
                .ok (.downloaded
                  { content := .file path, lastModified := facts.modified, size := facts.size }) ↔
              f.updateAvailable = true ∨ Unseen source facts) ∧
            ((upon (Fetch.fetch w s.fetch source) v).1 = .ok (.unchanged facts.modified) ↔
              ¬(f.updateAvailable = true ∨ Unseen source facts)) := by
  refine ⟨exists_comesTo w s hsource, fun x facts hturn hgoing hfacts => ?_⟩
  obtain ⟨finding, x', hfinding, hmem⟩ := mem_of_comesTo hrunning h hturn
  obtain ⟨progress, x'', hasked⟩ := upon_checkSource w s source hgoing
  have hprobe : (upon (Fetch.probe w s.fetch source) { x with progress }).1 =
      .ok facts.modified := probe_file hplace hfacts
  rw [hasked, hprobe] at hfinding
  cases hfinding
  refine ⟨_, hmem _ rfl, rfl, fun hnone hknown => ?_, fun v hv => ?_⟩
  · obtain ⟨applied, happlied⟩ := Option.ne_none_iff_exists'.mp hknown
    show isOutdated facts.modified source = false
    rw [hnone]
    unfold isOutdated
    rw [happlied]
  · have hsame : (w.facts path v.world).answer = .ok facts := by rw [hv, hfacts]
    have hfetch := Fetch.upon_fetchLocal w source hsame
    have hverdict : (findingOf source (.ok facts.modified)).updateAvailable =
      isOutdated facts.modified source := rfl
    rw [hverdict, ← isUnchanged_iff, Fetch.fetch_local w s.fetch hplace, hfetch]
    cases Fetch.isUnchanged source facts <;> simp

/-- The source of `assorted` whose file is as it was. -/
def asBefore : Source :=
  { id := 3, label := "same", location := "/same", appliedModified := some 5, sizeHint := 4 }

/-- A check of `assorted` comes to it second. -/
theorem check_file_assorted :
    ∃ findings x, (check shelf plain atDesk).1 = .ok findings ∧
      ComesTo shelf plain atDesk asBefore x ∧ x.control.stopped = false ∧
      ∃ f ∈ findings, f.source = 3 ∧
        ((upon (Fetch.fetch shelf plain.fetch asBefore) atDesk).1 =
            .ok (.unchanged (some (.ofMicros 5))) ↔
          ¬(f.updateAvailable = true ∨
            Unseen asBefore { modified := some (.ofMicros 5), size := 4 })) := by
  obtain ⟨findings, hcheck⟩ : ∃ findings, (check shelf plain atDesk).1 = .ok findings := by
    have hok : (check shelf plain atDesk).1.isOk = true := by decide +kernel
    cases h : (check shelf plain atDesk).1 with
    | error e =>
      rw [h] at hok
      cases hok
    | ok findings => exact ⟨findings, rfl⟩
  have hturn : ComesTo shelf plain atDesk asBefore
      (askedUpTo shelf plain (Work.started none atDesk)
        [{ id := 2, label := "new", location := "/new" }]) :=
    ⟨_, atDesk.store.enabledSources.drop 2, by decide +kernel, rfl⟩
  have hgoing : (askedUpTo shelf plain (Work.started none atDesk)
      [{ id := 2, label := "new", location := "/new" }]).control.stopped = false := by
    decide +kernel
  obtain ⟨f, hmem, hf, -, hfetch⟩ := (check_file rfl hcheck
    (show asBefore ∈ atDesk.store.enabledSources by decide +kernel)
    (rfl : asBefore.place = .ok (.local "/same"))).2 _
      { modified := some (.ofMicros 5), size := 4 } hturn hgoing rfl
  exact ⟨findings, _, hcheck, hturn, hgoing, f, hmem, hf, (hfetch atDesk rfl).2⟩

/-- That shelf with such files on it. -/
def shelfOf (facts : FileFacts) : World Unit :=
  { shelf with facts := fun _ _ => { answer := .ok facts, world := () } }

/-- What a check says of the file on that shelf, and what a fetch brings of it. -/
def verdictsOn (facts : FileFacts) : List Bool × Option Fetch.Fetched :=
  (((check (shelfOf facts) plain atDesk).1.toOption.getD []).filterMap fun f =>
      if f.source = 3 then some f.updateAvailable else none,
    (upon (Fetch.fetch (shelfOf facts) plain.fetch asBefore) atDesk).1.toOption)

/-- Without a time, and of a longer file that was written earlier, a check says that there is no
update, and a fetch brings the file. -/
theorem check_undated :
    verdictsOn { modified := none, size := 4 } =
        ([false], some (.downloaded { content := .file "/same", size := 4 })) ∧
      verdictsOn { modified := some (.ofMicros 1), size := 8 } =
        ([false], some (.downloaded
          { content := .file "/same", lastModified := some (.ofMicros 1), size := 8 })) := by
  decide +kernel

end Sinkhole.Update
