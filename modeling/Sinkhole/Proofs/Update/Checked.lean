import Sinkhole.Update.Check
import Sinkhole.Proofs.Store.Sources
import Sinkhole.Proofs.Update.Visits

/-! A check notes times and does nothing else to the store.

Whatever the world answers, and however the check ends, the store is the same afterwards
but for the times at which sources were last changed. What a check asks it asks under no
conditions, so it tells no server what content there is. -/
namespace Sinkhole

/-- The source but for the time that a check notes. -/
def Source.unprobed (source : Source) : Source := { source with remoteModified := none }

namespace Store

/-- The store but for the times that a check notes. -/
def unprobed (s : Store) : Store := { s with sources := s.sources.map Source.unprobed }

theorem setRemoteModified_unprobed (s : Store) (id : Int) (at? : Option Time.Instant) :
    (s.setRemoteModified id at?).unprobed = s.unprobed := by
  have hsources : (s.setRemoteModified id at?).sources.map Source.unprobed =
      s.sources.map Source.unprobed := s.modifySource_map fun _ => rfl
  rw [unprobed, unprobed, hsources]
  rfl

/-- A source is there afterwards only as it was before, but for the time. -/
theorem of_unprobed {s s' : Store} (h : s'.unprobed = s.unprobed) {source : Source}
    (hs : source ∈ s'.sources) : ∃ old ∈ s.sources, old.unprobed = source.unprobed := by
  have hsources : s'.sources.map Source.unprobed = s.sources.map Source.unprobed :=
    congrArg Store.sources h
  have hmem : source.unprobed ∈ s.sources.map Source.unprobed := by
    rw [← hsources]
    exact List.mem_map_of_mem hs
  exact List.mem_map.mp hmem

end Store

namespace Update

open Work (Keeps Sends)

variable {σ : Type} (w : World σ) (s : Setup)

/-- Whether a request is under no conditions. -/
def Unconditional (r : Fetch.Request) : Prop := r.ifNoneMatch = none ∧ r.ifModifiedSince = none

/-! ### One source -/

theorem probe_inquiry (source : Source) :
    Fetch.Inquiry w Unconditional (Fetch.probe w s.fetch source) :=
  Fetch.probe_inquiry w s.fetch (fun _ _ => ⟨rfl, rfl⟩) source

theorem checkSource_keeps (source : Source) : Keeps Store.unprobed (checkSource w s source) := by
  refine .bind (.of_confined .isStopped) fun stopped => ?_
  cases stopped with
  | true => exact .pure none
  | false =>
    refine .bind (.onProgress _) fun _ => .bind ?_ fun reported => .bind (.onProgress _) fun _ => ?_
    · exact (Keeps.of_confined (probe_inquiry w s source).confined).outcome
    · cases reported with
      | error e => exact .pure _
      | ok at? =>
        exact .bind (.onStore fun store => store.setRemoteModified_unprobed source.id at?)
          fun _ => .pure _

theorem checkSource_sends (source : Source) : Sends Unconditional (checkSource w s source) := by
  refine .bind .isStopped fun stopped => ?_
  cases stopped with
  | true => exact .pure none
  | false =>
    refine .bind (.onProgress _) fun _ => .bind ?_ fun reported => .bind (.onProgress _) fun _ => ?_
    · exact (probe_inquiry w s source).sends.outcome
    · cases reported with
      | error e => exact .pure _
      | ok at? => exact .bind (.onStore _) fun _ => .pure _

/-! ### Whole checks -/

theorem checkSources_keeps (sources : List Source) :
    Keeps Store.unprobed (checkSources w s sources) := by
  induction sources with
  | nil => exact .pure []
  | cons source sources ih =>
    exact .bind (checkSource_keeps w s source) fun finding => .bind ih fun _ => .pure _

theorem checkSources_sends (sources : List Source) :
    Sends Unconditional (checkSources w s sources) := by
  induction sources with
  | nil => exact .pure []
  | cons source sources ih =>
    exact .bind (checkSource_sends w s source) fun finding => .bind ih fun _ => .pure _

theorem preflight_keeps {κ : Type} {f : Store → κ} (sources : List Source) :
    Keeps f (preflight w sources) := by
  intro u
  rcases upon_preflight w sources u with h | h
  · rw [h]
  · rw [h]

theorem preflight_sends {q : Fetch.Request → Prop} (sources : List Source) :
    Sends q (preflight w sources) := by
  refine .of_deeds fun u => ?_
  rcases upon_preflight w sources u with h | h
  · rw [h]
  · rw [h]

theorem runCheck_keeps : Keeps Store.unprobed (runCheck w s) := by
  refine .bind (fun _ => rfl) fun u => ?_
  have hrest : Keeps Store.unprobed (do
      Work.onProgress (·.setTotal .check u.store.enabledSources.length)
      let findings ← checkSources w s
        (sortBy (fun a b => w.turn a ≤ w.turn b) u.store.enabledSources)
      return sortBy (fun a b => a.source ≤ b.source) findings) :=
    .bind (.onProgress _) fun _ => .bind (checkSources_keeps w s _) fun _ => .pure _
  dsimp only
  split
  · exact .bind (preflight_keeps w _) fun _ => hrest
  · exact hrest

theorem runCheck_sends : Sends Unconditional (runCheck w s) := by
  refine .bind .get fun u => ?_
  have hrest : Sends Unconditional (do
      Work.onProgress (·.setTotal .check u.store.enabledSources.length)
      let findings ← checkSources w s
        (sortBy (fun a b => w.turn a ≤ w.turn b) u.store.enabledSources)
      return sortBy (fun a b => a.source ≤ b.source) findings) :=
    .bind (.onProgress _) fun _ => .bind (checkSources_sends w s _) fun _ => .pure _
  dsimp only
  split
  · exact .bind (preflight_sends w _) fun _ => hrest
  · exact hrest

/-- **A check leaves the store as it is, but for the times it notes.** -/
theorem check_unprobed (u : Updater σ) : (check w s u).2.store.unprobed = u.store.unprobed :=
  (runCheck_keeps w s).supervised none u

/-- **A check sends no validators.** -/
theorem check_unconditional {u : Updater σ} (hu : u.running = false) :
    ∀ r, Deed.sent r ∈ (check w s u).2.deeds → Unconditional r := by
  rw [check]
  rcases Work.supervised_cases none (runCheck w s) u with ⟨hr, -⟩ | ⟨-, m, hrun⟩
  · simp [hu] at hr
  · rw [hrun]
    exact (runCheck_sends w s).of_started

end Update

end Sinkhole
