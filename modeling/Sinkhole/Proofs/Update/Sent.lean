import Sinkhole.Proofs.Update.All
import Sinkhole.Proofs.Update.Checked
import Sinkhole.Proofs.Update.One

/-! Which requests a run sends.

Only fetches ask servers for anything. So every request of a run is one that may go out
for a source that the run fetches: a source of the plan, as the store has it when the run
begins, or the one source that is updated in place. -/
namespace Sinkhole.Update

open Work (Sends upon)

variable {σ : Type} (w : World σ) (s : Setup)

/-- The request may go out for one of the sources. -/
def MaySendFor (sources : List Source) (r : Fetch.Request) : Prop :=
  ∃ source ∈ sources, Fetch.MaySend s.fetch source r

/-! ### One source -/

/-- Taking in asks the world for nothing but the opened content. -/
theorem settle_sends {q : Fetch.Request → Prop} (source : Source) (d : Fetch.Download)
    (generation : Int) : Sends q (settle w s source d generation) := by
  refine .bind .isStopped fun stopped => ?_
  cases stopped with
  | true => exact .pure _
  | false =>
    refine .bind (.onProgress _) fun _ => .bind (Sends.outcome ?_) fun came => ?_
    · refine .bind (.bind (.observe _) fun answer => ?_) fun opened => .of_deeds fun u => ?_
      · cases answer with
        | ok opened => exact .pure opened
        | error reason => exact .throw _
      · rw [upon_takeIn]
        dsimp only
        rw [foldl_heard]
        exact Updater.hearAll_deeds _ _
    · cases came with
      | ok outcome => exact .pure _
      | error e => exact .pure _

theorem updateSource_sends (generation : Int) (source : Source) :
    Sends (Fetch.MaySend s.fetch source) (updateSource w s generation source) := by
  rw [updateSource_eq]
  refine .bind (Fetch.fetch_inquiry w s.fetch source).sends.outcome fun fetched =>
    .bind (.onProgress _) fun _ => .bind ?_ fun settled => .bind (.onProgress _) fun _ => .pure _
  cases fetched with
  | error e => exact .pure _
  | ok fetched =>
    cases fetched with
    | downloaded d => exact settle_sends w s source d generation
    | unchanged remoteModified => exact .pure _

theorem updateSources_sends (generation : Int) (shown : Bool) (sources : List Source) :
    Sends (MaySendFor s sources) (updateSources w s generation shown sources) := by
  induction sources with
  | nil => exact .pure []
  | cons source sources ih =>
    have hfirst := (updateSource_sends w s generation source).mono
      fun r hr => (⟨source, List.mem_cons_self, hr⟩ : MaySendFor s (source :: sources) r)
    have hrest : Sends (MaySendFor s (source :: sources))
        (updateSources w s generation shown sources) := by
      refine ih.mono fun r hr => ?_
      obtain ⟨x, hx, hsend⟩ := hr
      exact ⟨x, List.mem_cons_of_mem source hx, hsend⟩
    have hturn : Sends (MaySendFor s (source :: sources)) (do
        let settled ← updateSource w s generation source
        return ⟨source, settled⟩ :: (← updateSources w s generation shown sources)) :=
      .bind hfirst fun settled => .bind hrest fun results => .pure _
    rw [updateSources]
    refine .bind .isStopped fun stopped => ?_
    cases stopped with
    | true => exact .pure []
    | false =>
      cases shown with
      | true => exact .bind (.onProgress _) fun _ => hturn
      | false => exact hturn

theorem syncTable_sends {q : Fetch.Request → Prop} : Sends q (syncTable : Work σ Summary) :=
  .of_deeds fun u => by rw [upon_syncTable]

/-! ### Runs over all sources -/

theorem conclusion_sends {q : Fetch.Request → Prop} (active : Int) (results : List Result) :
    Sends q (conclusion active results : Work σ Report) :=
  .of_deeds fun u => (conclusion_concludes active results u).same.2

theorem runPlan_sends (p : Plan) : Sends (MaySendFor s (p.files ++ p.remote)) (runPlan w s p) := by
  have hfiles : ∀ r, MaySendFor s p.files r → MaySendFor s (p.files ++ p.remote) r := by
    rintro r ⟨x, hx, hr⟩
    exact ⟨x, List.mem_append_left _ hx, hr⟩
  have hremote : ∀ r, MaySendFor s (sortBy (fun a b => w.turn a ≤ w.turn b) p.remote) r →
      MaySendFor s (p.files ++ p.remote) r := by
    rintro r ⟨x, hx, hr⟩
    exact ⟨x, List.mem_append_right _ ((sortBy_perm _).mem_iff.mp hx), hr⟩
  exact .bind (.onStore _) fun _ => .bind .get fun u => .bind (.onProgress _) fun _ =>
    .bind ((updateSources_sends w s _ true p.files).mono hfiles) fun first =>
      .bind ((updateSources_sends w s _ false _).mono hremote) fun second =>
        .bind (.onStore _) fun _ => conclusion_sends _ _

/-- **A run over all sources sends only what may be sent for a source that it fetches.** -/
theorem updateAll_sends (task : Option String) {u : Updater σ} (hu : u.running = false) :
    ∀ r, Deed.sent r ∈ (updateAll w s task u).2.deeds → MaySendFor s (fetchable u.store) r := by
  intro r hr
  rw [updateAll] at hr
  rcases Work.supervised_cases task (runAll w s) u with ⟨hrunning, -⟩ | ⟨-, m, hrun⟩
  · simp [hu] at hrunning
  · rw [hrun] at hr
    rcases upon_runAll w s (Work.started task u) with hfailed | ⟨hplan, -⟩
    · rw [hfailed] at hr
      cases hr
    · rw [hplan] at hr
      obtain ⟨deeds, hdeeds, hall⟩ := runPlan_sends w s (planOf u.store)
        { Work.started task u with store := forgetAll u.store (idle u.store) }
      have hr : Deed.sent r ∈ (Work.started task u).deeds ++ deeds := hdeeds ▸ hr
      obtain ⟨source, hsource, hsend⟩ := hall r hr
      have hperm := planOf_perm u.store fun a b => w.turn a ≤ w.turn b
      refine ⟨source, hperm.mem_iff.mp ?_, hsend⟩
      simpa [(sortBy_perm _).mem_iff] using hsource

/-! ### Runs over one source -/

theorem conclude_sends {q : Fetch.Request → Prop} (source : Source) (active : Int)
    (settled : Settled) : Sends q (conclude source active settled : Work σ Report) := by
  cases settled with
  | updated learned =>
    exact .bind (.onStore _) fun _ => .bind syncTable_sends fun summary =>
      .bind (.onProgress _) fun _ => .bind .get fun u => .pure _
  | unchanged learned => exact .pure _
  | failed reason => exact .bind (.onStore _) fun _ => .throw _
  | stopped => exact .bind (.onStore _) fun _ => .bind (.onProgress _) fun _ => .pure _

theorem runFetched_sends (source : Source) (active : Int) (isRemote : Bool) :
    Sends (Fetch.MaySend s.fetch source) (runFetched w s source active isRemote) := by
  refine .bind ?_ fun fetched => ?_
  · refine .bind (.onProgress _) fun _ => .bind (.onProgress _) fun _ =>
      .bind (Fetch.fetch_inquiry w s.fetch source).sends.outcome fun answer =>
        .bind (.onProgress _) fun _ => ?_
    cases answer with
    | ok fetched => exact .pure fetched
    | error e => exact .throw _
  · cases fetched with
    | unchanged remoteModified =>
      refine .of_deeds fun u => ?_
      cases remoteModified <;> rfl
    | downloaded d =>
      exact .bind (settle_sends w s source d _) fun settled => .bind (.onProgress _) fun _ =>
        conclude_sends source active settled

/-- **A run over one source sends only what may be sent for it.** -/
theorem updateOne_sends (id : Int) (task : Option String) {u : Updater σ}
    (hu : u.running = false) :
    ∀ r, Deed.sent r ∈ (updateOne w s id task u).2.deeds → ∃ source,
      u.store.source id = .ok source ∧ source.isUser = false ∧
        Fetch.MaySend s.fetch source r := by
  intro r hr
  rw [updateOne] at hr
  rcases Work.supervised_cases task (runOne w s id) u with ⟨hrunning, -⟩ | ⟨-, m, hrun⟩
  · simp [hu] at hrunning
  · rw [hrun] at hr
    rcases runOne_cases w s id (Work.started task u) with ⟨-, e, hearly, -⟩ | ⟨source, hs,
      ⟨-, hrefresh⟩ | ⟨huser, -, location, -, hfetch⟩⟩
    · rw [hearly] at hr
      cases hr
    · rw [hrefresh] at hr
      rcases upon_refreshOnly source (Work.started task u).store.active (Work.started task u) with
        ⟨-, hrefused⟩ | ⟨-, report, hmade, -⟩
      · rw [hrefused] at hr
        cases hr
      · rw [hmade] at hr
        cases hr
    · rw [hfetch, upon_runInPlace] at hr
      obtain ⟨deeds, hdeeds, hall⟩ := runFetched_sends w s source u.store.active location.isRemote
        { Work.started task u with store := { u.store with durability := .relaxed } }
      have hr : Deed.sent r ∈ (Work.started task u).deeds ++ deeds := hdeeds ▸ hr
      exact ⟨source, hs, huser, hall r hr⟩

end Sinkhole.Update
