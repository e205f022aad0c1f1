import Mathlib.Algebra.GroupWithZero.Nat
import Sinkhole.Proofs.Progress.Meter
import Sinkhole.Proofs.Update.All

/-! What the meter of a run over all sources counts.

To ask the world and to hear signals counts nothing (`Unmoved`). A source on its turn
counts as one download and one parse, however it comes out, and the hosts that are
counted then are the items that its parse puts into the staged generation
(`updateSource_tallied`). So the meter of a run has moved on by its visits
(`stagePlan_moved`). -/
namespace Sinkhole

open Progress (Moved)

variable {σ α β : Type}

namespace Updater

theorem hear_moved (u : Updater σ) (x : Signal) : Moved 0 0 0 u.progress (u.hear x).progress := by
  cases x with
  | stop =>
    show Moved 0 0 0 _ (if u.running then _ else _)
    split
    · exact u.progress.setStopped_moved
    · exact .refl _
  | pause =>
    show Moved 0 0 0 _ (Progress.setPaused (if u.running then _ else _) false)
    split
    · exact (u.progress.setPaused_moved true).trans (Progress.setPaused_moved _ false)
    · exact u.progress.setPaused_moved false
  | interrupt => exact .refl _
  | attempt run =>
    unfold hear
    cases u.enter <;> exact .refl _

theorem hearAll_moved (u : Updater σ) (signals : List Signal) :
    Moved 0 0 0 u.progress (signals.foldl hear u).progress := by
  induction signals generalizing u with
  | nil => exact .refl _
  | cons x signals ih => exact (u.hear_moved x).trans (ih (u.hear x))

end Updater

namespace Work

/-- The work counts nothing, whether or not it fails. -/
def Unmoved (work : Work σ α) : Prop :=
  ∀ u : Updater σ, Moved 0 0 0 u.progress (upon work u).2.progress

namespace Unmoved

theorem pure (a : α) : Unmoved (pure a : Work σ α) := fun _ => .refl _

theorem throw (e : Error) : Unmoved (throw e : Work σ α) := fun _ => .refl _

theorem bind {work : Work σ α} {next : α → Work σ β} (hw : Unmoved work)
    (hn : ∀ a, Unmoved (next a)) : Unmoved (work >>= next) := by
  intro u
  have hu := hw u
  rw [upon_bind]
  cases h : upon work u with
  | mk r u' =>
    rw [h] at hu
    cases r with
    | ok a => exact hu.trans (hn a u')
    | error e => exact hu

theorem outcome {work : Work σ α} (hw : Unmoved work) : Unmoved (outcome work) := by
  intro u
  rw [upon_outcome]
  exact hw u

theorem note (d : Deed) : Unmoved (note d : Work σ Unit) := fun _ => .refl _

theorem observe (ask : σ → Observed σ α) : Unmoved (observe ask) := by
  intro u
  rw [upon_observe]
  exact Updater.hearAll_moved { u with world := (ask u.world).world } _

end Unmoved

end Work

theorem Fetch.Inquiry.unmoved {w : World σ} {q : Fetch.Request → Prop} {work : Work σ α}
    (h : Fetch.Inquiry w q work) : Work.Unmoved work := by
  induction h with
  | pure a => exact .pure a
  | throw e => exact .throw e
  | bind first rest ihf ihr => exact .bind ihf ihr
  | outcome inquiry ih => exact ih.outcome
  | waited millis => exact .note _
  | facts path => exact .observe _
  | exchange taken =>
    refine .bind (.note _) fun _ => .bind (.observe _) fun answer => ?_
    cases answer with
    | ok response => exact .pure response
    | error fault => exact .throw _

namespace Update

open Work (upon)

variable {w : World σ} {s : Setup} {source : Source} {generation : Int}

/-! ### One source -/

/-- The hosts counted from one updater to the next are the items that the source then has in the
generation, if it had none. -/
structure Tallied (downloads parses : Nat) (source : Source) (generation : Int)
    (u u' : Updater σ) (hosts : Nat) : Prop where
  moved : Moved downloads parses hosts u.progress u'.progress
  inserted : u.store.itemsOf source.id generation = [] →
    hosts = (u'.store.itemsOf source.id generation).length

/-- Where nothing is done, nothing is counted. -/
theorem Tallied.none (source : Source) (generation : Int) (u : Updater σ) :
    Tallied 0 0 source generation u u 0 := ⟨.refl _, fun hnone => by rw [hnone]; rfl⟩

theorem openAndTakeIn_tallied (w : World σ) (s : Setup) (source : Source) (generation : Int)
    (content : Fetch.Content) (u : Updater σ) :
    ∃ hosts, Tallied 0 0 source generation u
      (upon (openAndTakeIn w s source content generation) u).2 hosts := by
  have hopening : Moved 0 0 0 u.progress (afterOpening w content u).progress :=
    Updater.hearAll_moved { u with world := (content.opening w u.world).world } _
  cases hanswer : (content.opening w u.world).answer with
  | error reason =>
    have hfailed : upon (openAndTakeIn w s source content generation) u =
        (.error (.io reason), afterOpening w content u) := by
      refine Work.upon_bind_of_error ?_
      rw [Fetch.openContent, Work.upon_bind_of_ok (Work.upon_observe _ u), hanswer]
      rfl
    rw [hfailed]
    refine ⟨0, hopening, fun hnone => ?_⟩
    rw [afterOpening_store, hnone]
    rfl
  | ok opened =>
    have hcounted := Intake.run_counted (.of source generation) s.intake
      (haltedAt (afterOpening w content u).control opened.meanwhile) opened.reading
      (afterOpening w content u).store opened.arrival
    rw [upon_openAndTakeIn hanswer, upon_takeIn]
    generalize Intake.run s.intake (.of source generation) _ opened.reading _ _ = r
      at hcounted ⊢
    have hadded : Moved 0 0 r.counted u.progress
        ((afterOpening w content u).progress.addHosts r.counted) :=
      hopening.still_trans (Progress.addHosts_moved _ r.counted)
    refine ⟨r.counted, ?_, fun _ => ?_⟩
    · dsimp only
      rw [foldl_heard]
      exact hadded.trans (Updater.hearAll_moved { afterOpening w content u with
        store := r.store
        progress := (afterOpening w content u).progress.addHosts r.counted } _)
    · dsimp only
      rw [heard_store]
      exact hcounted

theorem settle_tallied (w : World σ) (s : Setup) (source : Source) (generation : Int)
    (d : Fetch.Download) (u : Updater σ) :
    ∃ hosts, Tallied 0 0 source generation u (upon (settle w s source d generation) u).2 hosts := by
  rw [upon_settle]
  split
  · exact ⟨0, .none source generation u⟩
  · obtain ⟨hosts, hmoved, hinserted⟩ := openAndTakeIn_tallied w s source generation d.content
      { u with progress := u.progress.setCurrentItem source.label }
    exact ⟨hosts, (u.progress.setCurrentItem_moved source.label).still_trans hmoved, hinserted⟩

theorem settleFetched_tallied (w : World σ) (s : Setup) (source : Source) (generation : Int)
    (fetched : Except Error Fetch.Fetched) (u : Updater σ) :
    ∃ hosts, Tallied 0 0 source generation u
      (upon (settleFetched w s generation source fetched) u).2 hosts := by
  cases fetched with
  | error e => exact ⟨0, .none source generation u⟩
  | ok fetched =>
    cases fetched with
    | downloaded d => exact settle_tallied w s source generation d u
    | unchanged remoteModified => exact ⟨0, .none source generation u⟩

/-- **A source on its turn counts once in each phase**, and the hosts counted are the items that its
parse inserts. -/
theorem updateSource_tallied (w : World σ) (s : Setup) (generation : Int) (source : Source)
    (u : Updater σ) : ∃ hosts, Tallied 1 1 source generation u
      (upon (updateSource w s generation source) u).2 hosts := by
  have hfetch : Moved 0 0 0 u.progress (upon (Fetch.fetch w s.fetch source) u).2.progress :=
    (Fetch.fetch_inquiry w s.fetch source).unmoved u
  have hstore := Fetch.fetch_store w s.fetch source u
  rw [updateSource_eq, Work.upon_bind_of_ok (Work.upon_outcome _ u),
    Work.upon_bind_of_ok (Work.upon_onProgress _ _)]
  generalize upon (Fetch.fetch w s.fetch source) u = came at hfetch hstore
  obtain ⟨fetched, u₁⟩ := came
  obtain ⟨settled, u₂, hsettle⟩ := settleFetched_ok w s generation source fetched
    { u₁ with progress := u₁.progress.complete .download }
  obtain ⟨hosts, hmoved, hinserted⟩ := settleFetched_tallied w s source generation fetched
    { u₁ with progress := u₁.progress.complete .download }
  rw [hsettle] at hmoved hinserted
  rw [Work.upon_bind_of_ok hsettle, Work.upon_bind_of_ok (Work.upon_onProgress _ u₂)]
  refine ⟨hosts, ?_, fun hnone => hinserted ?_⟩
  · have hdownload := hfetch.still_trans (Progress.completeDownload_moved _)
    have hparse := (hdownload.trans hmoved).trans u₂.progress.completeParse_moved
    rwa [Nat.zero_add, Nat.zero_add] at hparse
  · rw [← hnone]
    exact congrArg (Store.itemsOf · source.id generation) hstore

/-! ### A chain of visits -/

/-- The hosts that were counted while a source had its turn. -/
def Visit.hosts (v : Visit σ) : Nat :=
  v.after.progress.now.hostsParsed - v.before.progress.now.hostsParsed

/-- A visit counts once in each phase, and the hosts counted on it are the items it inserted. -/
theorem visit_tallied {v : Visit σ} (works : upon (updateSource w s generation v.source) v.before =
    (.ok v.settled, v.after)) : Tallied 1 1 v.source generation v.before v.after v.hosts := by
  obtain ⟨hosts, htallied⟩ := updateSource_tallied w s generation v.source v.before
  rw [works] at htallied
  have hhosts : v.hosts = hosts := by
    rw [Visit.hosts, htallied.moved.hosts, Nat.add_sub_cancel_left]
  exact hhosts ▸ htallied

theorem visitSources_moved {shown : Bool} {sources : List Source} {u last : Updater σ}
    {visits : List (Visit σ)}
    (h : upon (visitSources w s generation shown sources) u = (.ok visits, last)) :
    Moved visits.length visits.length (visits.map Visit.hosts).sum u.progress last.progress := by
  induction sources generalizing u visits with
  | nil =>
    obtain ⟨hvisits, rfl⟩ := Prod.mk.inj h
    cases hvisits
    exact .refl _
  | cons source sources ih =>
    cases hu : u.control.stopped with
    | true =>
      rw [visitSources, Work.upon_bind_of_ok (Work.upon_isStopped u), hu] at h
      obtain ⟨hvisits, rfl⟩ := Prod.mk.inj h
      cases hvisits
      exact .refl _
    | false =>
      obtain ⟨p, settled, after, hshown, hworks, hrun⟩ :=
        upon_visitSources_cons w s generation shown source sources hu
      rw [hrun] at h
      obtain ⟨rest, u₁, hrest, hvisits⟩ := Work.of_upon_bind h
      obtain ⟨hvisits, rfl⟩ := Prod.mk.inj hvisits
      cases hvisits
      have hbefore : Moved 0 0 0 u.progress p := by
        rcases hshown with rfl | rfl
        · exact .refl _
        · exact u.progress.setCurrentItem_moved source.label
      have hfirst := hbefore.still_trans
        (visit_tallied (v := ⟨source, settled, { u with progress := p }, after⟩) hworks).moved
      have hall := hfirst.trans (ih hrest)
      rw [Nat.add_comm 1] at hall
      exact hall

/-- Visits to sources that have nothing in the generation yet: each is the first to write there
for its source. -/
theorem Visits.fresh {u last : Updater σ} {visits : List (Visit σ)}
    (h : Visits w s generation u visits last) (hn : (visits.map (·.source.id)).Nodup)
    (hnone : ∀ v ∈ visits, u.store.itemsOf v.source.id generation = []) :
    ∀ v ∈ visits, v.before.store.itemsOf v.source.id generation = [] ∧
      v.hosts = (v.after.store.itemsOf v.source.id generation).length := by
  induction h with
  | none u => exact fun v hv => absurd hv List.not_mem_nil
  | @turn u last v visits going starts works rest ih =>
    have hvisit := Visits.turn_confined starts works
    obtain ⟨m, hbefore⟩ := starts
    rw [List.map_cons, List.nodup_cons] at hn
    intro x hx
    rcases List.mem_cons.mp hx with rfl | hx
    · have hstart : x.before.store.itemsOf x.source.id generation = [] := by
        rw [hbefore]
        exact hnone x List.mem_cons_self
      exact ⟨hstart, (visit_tallied works).inserted hstart⟩
    · refine ih hn.2 (fun y hy => ?_) x hx
      rw [← hnone y (List.mem_cons_of_mem v hy)]
      refine hvisit.store.itemsOf_eq fun i hi => Bool.eq_false_iff.mpr fun hv => hn.1 ?_
      rw [(Item.isOf_iff.mp hv).1.symm.trans (Item.isOf_iff.mp hi).1]
      exact List.mem_map_of_mem hy

/-! ### Whole runs -/

theorem stagePlan_moved {p : Plan} {u last : Updater σ} {visits : List (Visit σ)}
    (h : upon (stagePlan w s p) u = (.ok visits, last)) :
    Moved visits.length visits.length (visits.map Visit.hosts).sum
      ((u.progress.setTotal .download p.size).setTotal .parse p.size) last.progress := by
  rw [stagePlan, Work.upon_bind_of_ok (Work.upon_onStore _ u), Work.upon_get_bind,
    Work.upon_bind_of_ok (Work.upon_onProgress _ _)] at h
  obtain ⟨first, middle, hfirst, h⟩ := Work.of_upon_bind h
  obtain ⟨second, u₁, hsecond, h⟩ := Work.of_upon_bind h
  obtain ⟨hvisits, rfl⟩ := Prod.mk.inj h
  cases hvisits
  rw [List.length_append, List.map_append, List.sum_append]
  exact (visitSources_moved hfirst).trans (visitSources_moved hsecond)

/-- In a run that is not stopped, the hosts counted on a visit are what its source then has in the
staged generation, where it had nothing before. -/
theorem FullRun.fresh {u start last : Updater σ} {visits : List (Visit σ)}
    (h : FullRun w s u start visits last) (hk : u.store.Keyed)
    (hs : last.control.stopped = false) :
    ∀ v ∈ visits, v.before.store.itemsOf v.source.id (u.store.active + 1) = [] ∧
      v.hosts = (v.after.store.itemsOf v.source.id (u.store.active + 1)).length := by
  refine h.chain.fresh (h.nodup hk hs) fun v hv => ?_
  rw [h.store]
  exact cleared_itemsOf_next u.store (h.id_ne_user v hv)

end Update

end Sinkhole
