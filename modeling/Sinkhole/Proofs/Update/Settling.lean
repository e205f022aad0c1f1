import Sinkhole.Update.Settling
import Sinkhole.Proofs.Fetch
import Sinkhole.Proofs.Intake
import Sinkhole.Proofs.Intake.Sifted
import Sinkhole.Proofs.Store.InForce

/-! How taking over what was fetched ends.

It never fails as a whole, and it writes nothing but the source's items in the
generation. It ends in an update exactly when the content could be opened and was
read to its end with no checkpoint on the way seeing a stop; a stop that comes after
the last checkpoint is not one of those. If it ends in a stop, there was one. -/
namespace Sinkhole.Update

open Work (Confined upon)

variable {σ : Type} {w : World σ} {s : Setup} {source : Source} {generation : Int}

/-- The entries that the whole of a content comes to; the generation has no part in it. -/
def Setup.entriesFrom (s : Setup) (source : Source) (opened : Opened) : List Entry :=
  Intake.entriesOf (Intake.Target.of source 0) s.intake opened.reading opened.arrival

/-- The items that the whole of an opened content comes to. -/
def Setup.itemsFrom (s : Setup) (source : Source) (generation : Int) (opened : Opened) :
    List Item :=
  (Intake.entriesOf (Intake.Target.of source generation) s.intake opened.reading
    opened.arrival).map (Item.ofEntry source.id generation)

theorem Setup.itemsFrom_eq (s : Setup) (source : Source) (generation : Int) (opened : Opened) :
    s.itemsFrom source generation opened =
      (s.entriesFrom source opened).map (Item.ofEntry source.id generation) := rfl

/-- A list that redirects no host to two targets comes to the same items in whatever order its
entries arrive, and however much is remembered of it. -/
theorem entriesOf_same {t : Intake.Target} {r : Reading}
    (h : Store.Undivided (Intake.listed t r)) (settings : Intake.Settings)
    (arrival : Option Intake.Arrival) (id generation generation' : Int) :
    Store.SameItems ((Intake.listed t r).map (Item.ofEntry id generation))
      ((Intake.entriesOf t settings r arrival).map (Item.ofEntry id generation')) :=
  .of_entries h (Intake.handedOn_sifted settings.dedupCap arrival _).mem_iff

theorem Setup.itemsFrom_same (s : Setup) {source : Source} {opened : Opened}
    (h : Store.Undivided (Intake.listed (Intake.Target.of source 0) opened.reading))
    (generation generation' : Int) :
    Store.SameItems ((Intake.listed (Intake.Target.of source 0) opened.reading).map
      (Item.ofEntry source.id generation)) (s.itemsFrom source generation' opened) :=
  entriesOf_same h s.intake opened.arrival source.id generation generation'

/-- What was fetched can be opened and is read to its end, and no checkpoint sees a stop. -/
structure ReadThrough (w : World σ) (content : Fetch.Content) (u : Updater σ) (opened : Opened) :
    Prop where
  going : u.control.stopped = false
  answer : (content.opening w u.world).answer = .ok opened
  sound : opened.reading.fault = none
  unseen : Intake.haltLine?
    (haltedAt { stopped := (content.opening w u.world).signals.any Signal.stops } opened.meanwhile)
    (Intake.chunks opened.reading).length = none

/-! ### Stops that come in while lines are read -/

/-- When what came in takes effect, after which line it came has no part in it. -/
theorem foldl_heard (meanwhile : List (Nat × Signal)) (u : Updater σ) :
    meanwhile.foldl (fun u heard => u.hear heard.2) u =
      (meanwhile.map Prod.snd).foldl Updater.hear u :=
  List.foldl_map.symm

theorem heard_store (meanwhile : List (Nat × Signal)) (u : Updater σ) :
    (meanwhile.foldl (fun u heard => u.hear heard.2) u).store = u.store := by
  rw [foldl_heard]
  exact u.hearAll_store _

theorem heard_stopped (meanwhile : List (Nat × Signal)) (u : Updater σ) :
    (meanwhile.foldl (fun u heard => u.hear heard.2) u).control.stopped =
      (u.control.stopped || (meanwhile.map Prod.snd).any Signal.stops) := by
  rw [foldl_heard]
  exact u.hearAll_stopped _

/-- A stop that some line would notice is in force once everything was heard. -/
theorem stopped_of_haltedAt {u : Updater σ} {meanwhile : List (Nat × Signal)} {lines : Nat}
    (h : haltedAt u.control meanwhile lines = true) :
    (meanwhile.foldl (fun u heard => u.hear heard.2) u).control.stopped = true := by
  rw [heard_stopped]
  rw [haltedAt, Bool.or_eq_true] at h
  rcases h with h | h
  · rw [h, Bool.true_or]
  · obtain ⟨heard, hmem, hstop⟩ := List.any_eq_true.mp h
    rw [Bool.and_eq_true] at hstop
    have hany : (meanwhile.map Prod.snd).any Signal.stops = true :=
      List.any_eq_true.mpr ⟨heard.2, List.mem_map_of_mem hmem, hstop.2⟩
    rw [hany, Bool.or_true]

/-! ### Taking in -/

theorem upon_takeIn (target : Intake.Target) (opened : Opened) (u : Updater σ) :
    upon (takeIn s target opened) u =
      let r := Intake.run s.intake target (haltedAt u.control opened.meanwhile) opened.reading
        u.store opened.arrival
      (r.outcome, opened.meanwhile.foldl (fun u heard => u.hear heard.2)
        { u with store := r.store, progress := u.progress.addHosts r.counted }) := by
  rw [takeIn, Work.upon_get_bind]
  dsimp only
  cases (Intake.run s.intake target (haltedAt u.control opened.meanwhile) opened.reading
    u.store opened.arrival).outcome <;> rfl

theorem takeIn_confined (target : Intake.Target) (opened : Opened) :
    Confined target.owns (takeIn s target opened : Work σ Intake.Outcome) := by
  intro u
  rw [upon_takeIn]
  refine ⟨?_, fun hs => ?_⟩
  · rw [heard_store]
    exact Intake.run_changes target s.intake _ opened.reading u.store opened.arrival
  · rw [heard_stopped]
    exact Bool.or_eq_true_iff.mpr (.inl hs)

/-- The part of settling that opens the content and takes it in. -/
def openAndTakeIn (w : World σ) (s : Setup) (source : Source) (content : Fetch.Content)
    (generation : Int) : Work σ Intake.Outcome := do
  takeIn s (Intake.Target.of source generation) (← Fetch.openContent w content)

/-- The updater when the world has answered to being asked for a content. -/
def afterOpening (w : World σ) (content : Fetch.Content) (u : Updater σ) : Updater σ :=
  (content.opening w u.world).signals.foldl Updater.hear
    { u with world := (content.opening w u.world).world }

theorem afterOpening_store (content : Fetch.Content) (u : Updater σ) :
    (afterOpening w content u).store = u.store := Updater.hearAll_store _ _

/-- Lines see a stop that came in while the content was opened, or since. -/
theorem afterOpening_haltedAt {content : Fetch.Content} {u : Updater σ}
    (h : u.control.stopped = false) (meanwhile : List (Nat × Signal)) :
    haltedAt (afterOpening w content u).control meanwhile =
      haltedAt { stopped := (content.opening w u.world).signals.any Signal.stops } meanwhile := by
  funext lines
  have hstopped : (afterOpening w content u).control.stopped =
      (u.control.stopped || (content.opening w u.world).signals.any Signal.stops) :=
    Updater.hearAll_stopped _ _
  rw [h, Bool.false_or] at hstopped
  rw [haltedAt, haltedAt, hstopped]

/-- Opening succeeded, and what comes next is taking in what was opened. -/
theorem upon_openAndTakeIn {content : Fetch.Content} {u : Updater σ} {opened : Opened}
    (h : (content.opening w u.world).answer = .ok opened) :
    upon (openAndTakeIn w s source content generation) u =
      upon (takeIn s (Intake.Target.of source generation) opened) (afterOpening w content u) := by
  refine Work.upon_bind_of_ok ?_
  rw [Fetch.openContent, Work.upon_bind_of_ok (Work.upon_observe _ u), h]
  rfl

/-- What was taken in was opened before. If it ended in a stop, there was one; if not, the
content was read through and the items are what it comes to. -/
theorem openAndTakeIn_ok {content : Fetch.Content} {u u' : Updater σ} {outcome : Intake.Outcome}
    (h : upon (openAndTakeIn w s source content generation) u = (.ok outcome, u'))
    (hk : u.store.knows source.id = true) :
    (outcome.stopped = true → u'.control.stopped = true) ∧
      (u.control.stopped = false → outcome.stopped = false → ∃ opened,
        ReadThrough w content u opened ∧
          u'.store.itemsOf source.id generation = s.itemsFrom source generation opened) := by
  obtain ⟨opened, u₁, hopen, -⟩ := Work.of_upon_bind h
  have hanswer := Fetch.openContent_answer w hopen
  rw [upon_openAndTakeIn hanswer, upon_takeIn] at h
  obtain ⟨hrun, rfl⟩ := Prod.mk.inj h
  have hknows : (afterOpening w content u).store.knows source.id = true := by
    rw [afterOpening_store]
    exact hk
  refine ⟨fun hs => ?_, fun hgoing hs => ?_⟩
  · obtain ⟨n, hn⟩ := Intake.run_stopped hknows hrun hs
    rw [heard_stopped]
    exact (heard_stopped opened.meanwhile _).symm.trans
      (stopped_of_haltedAt (Intake.halted_of_haltLine? hn))
  · obtain ⟨hunseen, hsound, hitems⟩ := Intake.run_finished hknows hrun hs
    rw [afterOpening_haltedAt hgoing] at hunseen
    refine ⟨opened, ⟨hgoing, hanswer, hsound, hunseen⟩, ?_⟩
    rw [heard_store]
    exact hitems

theorem openAndTakeIn_of_readThrough (s : Setup) (source : Source) (generation : Int)
    {content : Fetch.Content} {u : Updater σ} {opened : Opened}
    (h : ReadThrough w content u opened) (hk : u.store.knows source.id = true) :
    ∃ outcome u', upon (openAndTakeIn w s source content generation) u = (.ok outcome, u') ∧
      outcome.stopped = false := by
  have hknows : (afterOpening w content u).store.knows source.id = true := by
    rw [afterOpening_store]
    exact hk
  have hunseen := h.unseen
  rw [← afterOpening_haltedAt h.going] at hunseen
  obtain ⟨outcome, ho, hs⟩ := Intake.run_unhindered (t := .of source generation) s.intake
    opened.arrival hknows hunseen h.sound
  rw [upon_openAndTakeIn h.answer, upon_takeIn]
  exact ⟨outcome, _, congrArg (Prod.mk · _) ho, hs⟩

/-! ### Settling -/

theorem settle_confined (w : World σ) (s : Setup) (source : Source) (d : Fetch.Download)
    (generation : Int) :
    Confined (·.isOf source.id generation) (settle w s source d generation) := by
  refine .bind .isStopped fun stopped => ?_
  cases stopped with
  | true => exact .pure _
  | false =>
    refine .bind (.onProgress _) fun _ => .bind (Confined.outcome ?_) fun came => ?_
    · exact .bind (Fetch.openContent_confined w d.content) fun opened =>
        takeIn_confined (Intake.Target.of source generation) opened
    · cases came with
      | ok outcome => exact .pure _
      | error e => exact .pure _

/-- How a source comes out when the control was looked at first. -/
theorem upon_settle (d : Fetch.Download) (u : Updater σ) :
    upon (settle w s source d generation) u =
      if u.control.stopped then (.ok .stopped, u)
      else
        let came := upon (openAndTakeIn w s source d.content generation)
          { u with progress := u.progress.setCurrentItem source.label }
        (.ok (match came.1 with
          | .ok outcome => if outcome.stopped then .stopped else .updated (newMetadata d)
          | .error e => .failed e.message), came.2) := by
  rw [settle, Work.upon_bind_of_ok (Work.upon_isStopped u)]
  cases u.control.stopped with
  | true => rfl
  | false =>
    show upon (Work.onProgress _ >>= fun _ =>
      Work.outcome (openAndTakeIn w s source d.content generation) >>= fun came => _) u = _
    rw [Work.upon_bind_of_ok (Work.upon_onProgress _ u),
      Work.upon_bind_of_ok (Work.upon_outcome _ _), if_neg Bool.false_ne_true]
    dsimp only
    cases (upon (openAndTakeIn w s source d.content generation)
      { u with progress := u.progress.setCurrentItem source.label }).1 <;> rfl

theorem settle_ok (w : World σ) (s : Setup) (source : Source) (d : Fetch.Download)
    (generation : Int) (u : Updater σ) :
    ∃ settled u', upon (settle w s source d generation) u = (.ok settled, u') := by
  rw [upon_settle]
  split
  · exact ⟨_, _, rfl⟩
  · exact ⟨_, _, rfl⟩

/-- What was fetched anew does not come out as unchanged. -/
theorem settle_ne_unchanged {d : Fetch.Download} {u u' : Updater σ} {learned : Metadata} :
    upon (settle w s source d generation) u ≠ (.ok (.unchanged learned), u') := by
  intro h
  rw [upon_settle] at h
  split at h
  · cases h
  · obtain ⟨hsettled, -⟩ := Prod.mk.inj h
    injection hsettled with hsettled
    split at hsettled
    · split at hsettled
      · cases hsettled
      · cases hsettled
    · cases hsettled

/-- **A source comes out as stopped only if there was a stop.** -/
theorem settle_stopped {d : Fetch.Download} {u u' : Updater σ}
    (h : upon (settle w s source d generation) u = (.ok .stopped, u'))
    (hk : u.store.knows source.id = true) : u'.control.stopped = true := by
  rw [upon_settle] at h
  split at h
  · rename_i hstopped
    obtain ⟨-, rfl⟩ := Prod.mk.inj h
    exact hstopped
  · cases hcame : upon (openAndTakeIn w s source d.content generation)
        { u with progress := u.progress.setCurrentItem source.label } with
    | mk r u₁ =>
      rw [hcame] at h
      obtain ⟨hsettled, rfl⟩ := Prod.mk.inj h
      cases r with
      | error e => cases hsettled
      | ok outcome =>
        refine (openAndTakeIn_ok hcame hk).1 ?_
        cases ho : outcome.stopped with
        | true => rfl
        | false =>
          simp only [ho] at hsettled
          cases hsettled

/-- **A source comes out as updated only if its content was read through**, and then its items in
the generation are what the content comes to. -/
theorem settle_updated {d : Fetch.Download} {u u' : Updater σ} {learned : Metadata}
    (h : upon (settle w s source d generation) u = (.ok (.updated learned), u'))
    (hk : u.store.knows source.id = true) :
    learned = newMetadata d ∧ ∃ opened, ReadThrough w d.content u opened ∧
      u'.store.itemsOf source.id generation = s.itemsFrom source generation opened := by
  rw [upon_settle] at h
  split at h
  · cases h
  · rename_i hgoing
    have hgoing : u.control.stopped = false := Bool.eq_false_iff.mpr hgoing
    cases hcame : upon (openAndTakeIn w s source d.content generation)
        { u with progress := u.progress.setCurrentItem source.label } with
    | mk r u₁ =>
      rw [hcame] at h
      obtain ⟨hsettled, rfl⟩ := Prod.mk.inj h
      cases r with
      | error e => cases hsettled
      | ok outcome =>
        cases ho : outcome.stopped with
        | true =>
          simp only [ho] at hsettled
          cases hsettled
        | false =>
          simp only [ho] at hsettled
          refine ⟨by cases hsettled; rfl, ?_⟩
          obtain ⟨opened, hread, hitems⟩ := (openAndTakeIn_ok hcame hk).2 hgoing ho
          exact ⟨opened, ⟨hgoing, hread.answer, hread.sound, hread.unseen⟩, hitems⟩

/-- And what can be read through is taken over. -/
theorem settle_of_readThrough (s : Setup) (source : Source) (generation : Int)
    {d : Fetch.Download} {u : Updater σ} {opened : Opened}
    (h : ReadThrough w d.content u opened) (hk : u.store.knows source.id = true) :
    (upon (settle w s source d generation) u).1 = .ok (.updated (newMetadata d)) := by
  have hshown : ReadThrough w d.content
      { u with progress := u.progress.setCurrentItem source.label } opened :=
    ⟨h.going, h.answer, h.sound, h.unseen⟩
  obtain ⟨outcome, u', hcame, ho⟩ :=
    openAndTakeIn_of_readThrough s source generation hshown hk
  rw [upon_settle, if_neg (Bool.eq_false_iff.mp h.going), hcame]
  simp only [ho]
  rfl

/-- What was fetched cannot be opened, or reading it fails before its end. -/
def Broken (w : World σ) (content : Fetch.Content) (u : Updater σ) : Prop :=
  ∀ opened, (content.opening w u.world).answer = .ok opened → opened.reading.fault ≠ none

/-- Where there was no stop, only content that is broken is not read through. -/
theorem settle_broken {d : Fetch.Download} {u u' : Updater σ} {settled : Settled}
    (h : upon (settle w s source d generation) u = (.ok settled, u'))
    (hgoing : u'.control.stopped = false)
    (hunread : ∀ opened, ¬ReadThrough w d.content u opened) : Broken w d.content u := by
  intro opened hanswer hsound
  have hbefore : u.control.stopped = false := by
    refine Bool.eq_false_iff.mpr fun hs => ?_
    have hstopped := (settle_confined w s source d generation u).stopped hs
    rw [h, hgoing] at hstopped
    cases hstopped
  refine hunread opened ⟨hbefore, hanswer, hsound, ?_⟩
  cases hline : Intake.haltLine? (haltedAt
      { stopped := (d.content.opening w u.world).signals.any Signal.stops } opened.meanwhile)
      (Intake.chunks opened.reading).length with
  | none => rfl
  | some n =>
    -- a stop that a line would see is in force at the end
    rw [upon_settle, if_neg (Bool.eq_false_iff.mp hbefore)] at h
    obtain ⟨-, hlast⟩ := Prod.mk.inj h
    let shown : Updater σ := { u with progress := u.progress.setCurrentItem source.label }
    have hlast : (upon (openAndTakeIn w s source d.content generation) shown).2 = u' := hlast
    rw [upon_openAndTakeIn (u := shown) hanswer, upon_takeIn] at hlast
    have hhalted := Intake.halted_of_haltLine? hline
    rw [← @afterOpening_haltedAt σ w d.content shown hbefore] at hhalted
    have hstopped := stopped_of_haltedAt hhalted
    rw [← hlast, heard_stopped] at hgoing
    rw [heard_stopped] at hstopped
    exact absurd (hstopped.symm.trans hgoing) Bool.noConfusion

end Sinkhole.Update
