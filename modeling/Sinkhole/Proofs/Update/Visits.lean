import Sinkhole.Update.All
import Sinkhole.Proofs.Update.Settling

/-! The turns of the sources in a run.

A run over several sources is a chain of visits, each from the updater as the last one
left it, in whatever order the sources come. A visit writes only its own source's items
in the staged generation, so what one visit put there is still there at the end, and
everything outside that generation is as it was at the start. -/
namespace Sinkhole.Update

open Work (Confined upon)

variable {σ : Type} {w : World σ} {s : Setup} {generation : Int}

/-- What a source brings on its turn: it is fetched anew, and what was fetched is read through. -/
def Brings (w : World σ) (s : Setup) (source : Source) (u : Updater σ) (opened : Opened) : Prop :=
  ∃ d u', upon (Fetch.fetch w s.fetch source) u = (.ok (.downloaded d), u') ∧
    ReadThrough w d.content u' opened

/-! ### Before any visit -/

theorem upon_preflight (w : World σ) (sources : List Source) (u : Updater σ) :
    upon (preflight w sources) u = (.error .noConnection, u) ∨
      upon (preflight w sources) u = (.ok (), u) := by
  unfold preflight
  split
  · exact .inr rfl
  · exact .inl rfl

/-! ### One source -/

/-- How a source that was fetched comes out. -/
def settleFetched (w : World σ) (s : Setup) (generation : Int) (source : Source) :
    Except Error Fetch.Fetched → Work σ Settled
  | .ok (.downloaded d) => settle w s source d generation
  | .ok (.unchanged remoteModified) => return .unchanged (keptMetadata source remoteModified)
  | .error e => return .failed e.message

theorem updateSource_eq (w : World σ) (s : Setup) (generation : Int) (source : Source) :
    updateSource w s generation source = (do
      let fetched ← Work.outcome (Fetch.fetch w s.fetch source)
      Work.onProgress (·.complete .download)
      let settled ← settleFetched w s generation source fetched
      Work.onProgress (·.complete .parse)
      return settled) := by
  rw [updateSource]
  refine congrArg _ (funext fun fetched => congrArg _ (funext fun _ => ?_))
  cases fetched with
  | error e => rfl
  | ok fetched => cases fetched <;> rfl

theorem updateSource_confined (w : World σ) (s : Setup) (generation : Int) (source : Source) :
    Confined (·.isOf source.id generation) (updateSource w s generation source) := by
  rw [updateSource_eq]
  refine .bind (Fetch.fetch_confined w s.fetch source).outcome fun fetched =>
    .bind (.onProgress _) fun _ => .bind ?_ fun settled => .bind (.onProgress _) fun _ => .pure _
  cases fetched with
  | error e => exact .pure _
  | ok fetched =>
    cases fetched with
    | downloaded d => exact settle_confined w s source d generation
    | unchanged remoteModified => exact .pure _

theorem settleFetched_ok (w : World σ) (s : Setup) (generation : Int) (source : Source)
    (fetched : Except Error Fetch.Fetched) (u : Updater σ) :
    ∃ settled u', upon (settleFetched w s generation source fetched) u = (.ok settled, u') := by
  cases fetched with
  | error e => exact ⟨_, _, rfl⟩
  | ok fetched =>
    cases fetched with
    | unchanged remoteModified => exact ⟨_, _, rfl⟩
    | downloaded d => exact settle_ok w s source d generation u

theorem updateSource_ok (w : World σ) (s : Setup) (generation : Int) (source : Source)
    (u : Updater σ) : ∃ settled u', upon (updateSource w s generation source) u =
      (.ok settled, u') := by
  rw [updateSource_eq, Work.upon_bind_of_ok (Work.upon_outcome _ u),
    Work.upon_bind_of_ok (Work.upon_onProgress _ _)]
  obtain ⟨settled, u', h⟩ := settleFetched_ok w s generation source
    (upon (Fetch.fetch w s.fetch source) u).1
    { (upon (Fetch.fetch w s.fetch source) u).2 with
      progress := (upon (Fetch.fetch w s.fetch source) u).2.progress.complete .download }
  rw [Work.upon_bind_of_ok h]
  exact ⟨settled, _, rfl⟩

/-- A visit is the fetch and settling what came of it; besides, only the meter moves. -/
theorem of_upon_updateSource {source : Source} {u u' : Updater σ} {settled : Settled}
    (h : upon (updateSource w s generation source) u = (.ok settled, u')) :
    ∃ fetched u₁ p u₂ p', upon (Fetch.fetch w s.fetch source) u = (fetched, u₁) ∧
      upon (settleFetched w s generation source fetched) { u₁ with progress := p } =
        (.ok settled, u₂) ∧ u' = { u₂ with progress := p' } := by
  rw [updateSource_eq, Work.upon_bind_of_ok (Work.upon_outcome _ u),
    Work.upon_bind_of_ok (Work.upon_onProgress _ _)] at h
  obtain ⟨settled', u₂, hsettle, hrest⟩ := Work.of_upon_bind h
  rw [Work.upon_bind_of_ok (Work.upon_onProgress _ _)] at hrest
  obtain ⟨hs, rfl⟩ := Prod.mk.inj hrest
  injection hs with hs
  subst hs
  exact ⟨_, _, _, u₂, _, rfl, hsettle, rfl⟩

/-- The ways a visit ends: how the source comes out, and the updater after it. -/
inductive VisitEnds (w : World σ) (s : Setup) (generation : Int) (source : Source)
    (u : Updater σ) : Settled → Updater σ → Prop where
  /-- It was fetched anew, and holds exactly what its content comes to. -/
  | updated {d : Fetch.Download} {opened : Opened} {u₁ u' : Updater σ}
      (fetched : upon (Fetch.fetch w s.fetch source) u = (.ok (.downloaded d), u₁))
      (read : ReadThrough w d.content u₁ opened)
      (items : u'.store.itemsOf source.id generation = s.itemsFrom source generation opened) :
      VisitEnds w s generation source u (.updated (newMetadata d)) u'
  | unchanged {remoteModified : Option Time.Instant} {u₁ u' : Updater σ}
      (fetched : upon (Fetch.fetch w s.fetch source) u = (.ok (.unchanged remoteModified), u₁)) :
      VisitEnds w s generation source u (.unchanged (keptMetadata source remoteModified)) u'
  | unfetched {e : Error} {u₁ u' : Updater σ}
      (fetched : upon (Fetch.fetch w s.fetch source) u = (.error e, u₁)) :
      VisitEnds w s generation source u (.failed e.message) u'
  | unread {d : Fetch.Download} {reason : String} {u₁ u' : Updater σ}
      (fetched : upon (Fetch.fetch w s.fetch source) u = (.ok (.downloaded d), u₁))
      (unread : ∀ opened, ¬ReadThrough w d.content u₁ opened)
      (broken : u'.control.stopped = false → Broken w d.content u₁) :
      VisitEnds w s generation source u (.failed reason) u'
  | stopped {u' : Updater σ} (halted : u'.control.stopped = true) :
      VisitEnds w s generation source u .stopped u'

theorem updateSource_ends {source : Source} {u u' : Updater σ} {settled : Settled}
    (h : upon (updateSource w s generation source) u = (.ok settled, u'))
    (hk : u.store.knows source.id = true) : VisitEnds w s generation source u settled u' := by
  obtain ⟨fetched, u₁, p, u₂, p', hfetch, hsettle, rfl⟩ := of_upon_updateSource h
  have hstore := Fetch.fetch_store w s.fetch source u
  rw [hfetch] at hstore
  have hknows : u₁.store.knows source.id = true := by
    rw [show u₁.store = u.store from hstore]
    exact hk
  cases fetched with
  | error e =>
    cases hsettle
    exact .unfetched hfetch
  | ok fetched =>
    cases fetched with
    | unchanged remoteModified =>
      cases hsettle
      exact .unchanged hfetch
    | downloaded d =>
      have hsettle : upon (settle w s source d generation) { u₁ with progress := p } =
        (.ok settled, u₂) := hsettle
      cases settled with
      | unchanged learned => exact absurd hsettle settle_ne_unchanged
      | stopped =>
        have hstopped : u₂.control.stopped = true := settle_stopped hsettle hknows
        exact .stopped hstopped
      | updated learned =>
        obtain ⟨rfl, opened, hread, hitems⟩ := settle_updated hsettle hknows
        exact .updated hfetch ⟨hread.going, hread.answer, hread.sound, hread.unseen⟩ hitems
      | failed reason =>
        -- what could be read through would have been taken over
        have hunread : ∀ opened, ¬ReadThrough w d.content u₁ opened := fun opened hread => by
          have hupdated := settle_of_readThrough s source generation
            (u := { u₁ with progress := p })
            ⟨hread.going, hread.answer, hread.sound, hread.unseen⟩ hknows
          rw [hsettle] at hupdated
          cases hupdated
        refine .unread hfetch hunread fun hgoing => ?_
        have hbroken : Broken w d.content { u₁ with progress := p } :=
          settle_broken hsettle hgoing fun opened hread =>
            hunread opened ⟨hread.going, hread.answer, hread.sound, hread.unseen⟩
        exact hbroken

/-! ### A chain of visits -/

/-- One source on its turn: how it came out, and the updater before and after. -/
structure Visit (σ : Type) where
  source : Source
  settled : Settled
  before : Updater σ
  after : Updater σ

def Visit.result (v : Visit σ) : Result := ⟨v.source, v.settled⟩

/-- Visits one after the other, none of them after a stop. -/
inductive Visits (w : World σ) (s : Setup) (generation : Int) :
    Updater σ → List (Visit σ) → Updater σ → Prop where
  | none (u : Updater σ) : Visits w s generation u [] u
  | turn {u last v visits} (going : u.control.stopped = false)
      (starts : ∃ p, v.before = { u with progress := p })
      (works : upon (updateSource w s generation v.source) v.before = (.ok v.settled, v.after))
      (rest : Visits w s generation v.after visits last) :
      Visits w s generation u (v :: visits) last

/-- The work of `updateSources`, with a record of each visit instead of its result alone. -/
def visitSources (w : World σ) (s : Setup) (generation : Int) (shown : Bool) :
    List Source → Work σ (List (Visit σ))
  | [] => return []
  | source :: rest => do
    if ← Work.isStopped then return []
    if shown then Work.onProgress (·.setCurrentItem source.label)
    let before ← get
    let settled ← updateSource w s generation source
    let after ← get
    return ⟨source, settled, before, after⟩ :: (← visitSources w s generation shown rest)

/-- The records leave nothing out of the results and change nothing else. -/
theorem updateSources_eq (w : World σ) (s : Setup) (generation : Int) (shown : Bool)
    (sources : List Source) (u : Updater σ) :
    upon (updateSources w s generation shown sources) u =
      ((upon (visitSources w s generation shown sources) u).1.map (·.map Visit.result),
        (upon (visitSources w s generation shown sources) u).2) := by
  induction sources generalizing u with
  | nil => rfl
  | cons source sources ih =>
    rw [updateSources, visitSources, Work.upon_bind_of_ok (Work.upon_isStopped u),
      Work.upon_bind_of_ok (Work.upon_isStopped u)]
    cases u.control.stopped with
    | true => rfl
    | false =>
      have hturn : ∀ v : Updater σ,
          upon (do
            let settled ← updateSource w s generation source
            return ⟨source, settled⟩ :: (← updateSources w s generation shown sources)) v =
          let visited := upon (do
            let before ← get
            let settled ← updateSource w s generation source
            let after ← get
            return ⟨source, settled, before, after⟩ ::
              (← visitSources w s generation shown sources)) v
          (visited.1.map (·.map Visit.result), visited.2) := by
        intro v
        obtain ⟨settled, after, h⟩ := updateSource_ok w s generation source v
        rw [Work.upon_get_bind, Work.upon_bind_of_ok h, Work.upon_bind_of_ok h,
          Work.upon_get_bind, Work.upon_bind, Work.upon_bind, ih after]
        cases upon (visitSources w s generation shown sources) after with
        | mk r last => cases r <;> rfl
      rw [if_neg Bool.false_ne_true, if_neg Bool.false_ne_true]
      cases shown with
      | true =>
        rw [if_pos rfl, if_pos rfl, Work.upon_bind_of_ok (Work.upon_onProgress _ u),
          Work.upon_bind_of_ok (Work.upon_onProgress _ u)]
        exact hturn _
      | false =>
        rw [if_neg Bool.false_ne_true, if_neg Bool.false_ne_true]
        exact hturn u

/-- Without a stop the first source has its turn, perhaps after it is shown, and the others
follow. -/
theorem upon_visitSources_cons (w : World σ) (s : Setup) (generation : Int) (shown : Bool)
    (source : Source) (sources : List Source) {u : Updater σ} (hu : u.control.stopped = false) :
    ∃ p settled after, (p = u.progress ∨ p = u.progress.setCurrentItem source.label) ∧
      upon (updateSource w s generation source) { u with progress := p } = (.ok settled, after) ∧
      upon (visitSources w s generation shown (source :: sources)) u =
        upon (do return ⟨source, settled, { u with progress := p }, after⟩ ::
          (← visitSources w s generation shown sources)) after := by
  rw [visitSources, Work.upon_bind_of_ok (Work.upon_isStopped u), hu, if_neg Bool.false_ne_true]
  cases shown with
  | true =>
    obtain ⟨settled, after, h⟩ := updateSource_ok w s generation source
      { u with progress := u.progress.setCurrentItem source.label }
    refine ⟨_, settled, after, .inr rfl, h, ?_⟩
    rw [if_pos rfl, Work.upon_bind_of_ok (Work.upon_onProgress _ u), Work.upon_get_bind,
      Work.upon_bind_of_ok h, Work.upon_get_bind]
  | false =>
    obtain ⟨settled, after, h⟩ := updateSource_ok w s generation source u
    refine ⟨u.progress, settled, after, .inl rfl, h, ?_⟩
    rw [if_neg Bool.false_ne_true, Work.upon_get_bind, Work.upon_bind_of_ok h, Work.upon_get_bind]

/-- The sources one after the other are a chain of visits, to all of them unless there was a
stop. -/
theorem visitSources_visits (w : World σ) (s : Setup) (generation : Int) (shown : Bool)
    (sources : List Source) (u : Updater σ) :
    ∃ visits last, upon (visitSources w s generation shown sources) u = (.ok visits, last) ∧
      Visits w s generation u visits last ∧ (visits.map (·.source)).Sublist sources ∧
      (last.control.stopped = false → visits.map (·.source) = sources) := by
  induction sources generalizing u with
  | nil => exact ⟨[], u, rfl, .none u, .refl _, fun _ => rfl⟩
  | cons source sources ih =>
    cases hu : u.control.stopped with
    | true =>
      -- the first look at the control ends the chain
      refine ⟨[], u, ?_, .none u, List.nil_sublist _, fun hs => ?_⟩
      · rw [visitSources, Work.upon_bind_of_ok (Work.upon_isStopped u), hu]
        rfl
      · rw [hu] at hs
        cases hs
    | false =>
      obtain ⟨p, settled, after, -, hworks, hrun⟩ :=
        upon_visitSources_cons w s generation shown source sources hu
      obtain ⟨visits, last, hrest, hvisits, hsub, hall⟩ := ih after
      refine ⟨⟨source, settled, _, after⟩ :: visits, last, ?_,
        .turn hu ⟨p, rfl⟩ hworks hvisits, hsub.cons_cons source, fun hs => ?_⟩
      · rw [hrun, Work.upon_bind_of_ok hrest]
        rfl
      · rw [List.map_cons, hall hs]

namespace Visits

variable {u last : Updater σ} {visits : List (Visit σ)}

theorem append {middle : Updater σ} {more : List (Visit σ)}
    (h : Visits w s generation u visits middle) (h' : Visits w s generation middle more last) :
    Visits w s generation u (visits ++ more) last := by
  induction h with
  | none u => exact h'
  | turn going starts works _ ih => exact .turn going starts works (ih h')

/-- A visit writes only the staged items of its source, and so does what led to it. -/
theorem turn_confined {v : Visit σ} (starts : ∃ p, v.before = { u with progress := p })
    (works : upon (updateSource w s generation v.source) v.before = (.ok v.settled, v.after)) :
    u.Confined (·.isOf v.source.id generation) v.after := by
  obtain ⟨m, hbefore⟩ := starts
  have hvisit := updateSource_confined w s generation v.source v.before
  rw [works, hbefore] at hvisit
  exact ⟨hvisit.store, hvisit.stopped⟩

/-- Visits write only the staged items of the sources they are to. -/
theorem confined {p : Item → Bool} (h : Visits w s generation u visits last)
    (hp : ∀ v ∈ visits, ∀ i, i.isOf v.source.id generation = true → p i = true) :
    u.Confined p last := by
  induction h with
  | none u => exact .refl p u
  | @turn u last v visits going starts works rest ih =>
    have hfirst := (turn_confined starts works).mono (hp v List.mem_cons_self)
    exact hfirst.trans (ih fun x hx => hp x (List.mem_cons_of_mem v hx))

/-- Visits of any kind, for what does not depend on whose items they write. -/
theorem confined_any (h : Visits w s generation u visits last) :
    u.Confined (fun _ => true) last := h.confined fun _ _ _ _ => rfl

theorem ends (h : Visits w s generation u visits last)
    (hk : ∀ v ∈ visits, u.store.knows v.source.id = true) :
    ∀ v ∈ visits, VisitEnds w s generation v.source v.before v.settled v.after := by
  induction h with
  | none u => exact fun v hv => absurd hv List.not_mem_nil
  | @turn u last v visits going starts works rest ih =>
    have hvisit := turn_confined starts works
    obtain ⟨m, hbefore⟩ := starts
    intro x hx
    rcases List.mem_cons.mp hx with rfl | hx
    · exact updateSource_ends works (by rw [hbefore]; exact hk _ List.mem_cons_self)
    · refine ih (fun y hy => ?_) x hx
      rw [hvisit.store.knows]
      exact hk y (List.mem_cons_of_mem v hy)

/-- If no stop is in force at the end, there was none after any visit. -/
theorem going (h : Visits w s generation u visits last) (hlast : last.control.stopped = false) :
    ∀ v ∈ visits, v.after.control.stopped = false := by
  induction h with
  | none u => exact fun v hv => absurd hv List.not_mem_nil
  | @turn u last v visits going starts works rest ih =>
    intro x hx
    rcases List.mem_cons.mp hx with rfl | hx
    · refine Bool.eq_false_iff.mpr fun hs => ?_
      rw [rest.confined_any.stopped hs] at hlast
      cases hlast
    · exact ih hlast x hx

/-- And then no source came out as stopped. -/
theorem settled_ne_stopped (h : Visits w s generation u visits last)
    (hlast : last.control.stopped = false)
    (hk : ∀ v ∈ visits, u.store.knows v.source.id = true) : ∀ v ∈ visits, v.settled ≠ .stopped := by
  intro v hv hs
  have hends := h.ends hk v hv
  rw [hs] at hends
  cases hends with
  | stopped halted =>
    rw [h.going hlast v hv] at halted
    cases halted

/-- **At the end of the visits, what updated sources brought is what they hold.** -/
theorem updated (h : Visits w s generation u visits last)
    (hk : ∀ v ∈ visits, u.store.knows v.source.id = true)
    (hn : (visits.map (·.source.id)).Nodup) :
    ∀ v ∈ visits, ∀ m, v.settled = .updated m → ∃ opened, Brings w s v.source v.before opened ∧
      last.store.itemsOf v.source.id generation =
        s.itemsFrom v.source generation opened := by
  induction h with
  | none u => exact fun v hv => absurd hv List.not_mem_nil
  | @turn u last v visits going starts works rest ih =>
    have hvisit := turn_confined starts works
    obtain ⟨m, hbefore⟩ := starts
    rw [List.map_cons, List.nodup_cons] at hn
    intro x hx learned hs
    rcases List.mem_cons.mp hx with rfl | hx
    · rw [hs] at works
      obtain ⟨fetched, read, items⟩ :=
        updateSource_ends works (by rw [hbefore]; exact hk _ List.mem_cons_self)
      refine ⟨_, ⟨_, _, fetched, read⟩, ?_⟩
      rw [← items]
      -- the visits that follow are to other sources
      have hothers := rest.confined (p := fun i => i.source != x.source.id) fun y hy i hi => by
        rw [(Item.isOf_iff.mp hi).1, bne_iff_ne]
        exact fun he => hn.1 (he ▸ List.mem_map_of_mem hy)
      exact hothers.store.itemsOf_eq fun i hi => by rw [(Item.isOf_iff.mp hi).1, bne_self_eq_false]
    · refine ih (fun y hy => ?_) hn.2 x hx learned hs
      rw [hvisit.store.knows]
      exact hk y (List.mem_cons_of_mem v hy)

end Visits

end Sinkhole.Update
