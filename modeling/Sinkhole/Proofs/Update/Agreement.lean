import Sinkhole.Proofs.Update.InPlace
import Sinkhole.Proofs.Update.Learned

/-! Updating all sources at once, and each of them in place.

The two ways share no step that puts anything in force: one stages everything, carries
over what is kept and makes another generation the active one, and the other replaces the
items of one source in the generation that is active. In a steadfast world each source
still comes to its fate either way. For a run over all sources that is read off its
visits; for runs over one source `Partway` says what any number of them have done, in
whatever order they came. So the two ways end with the same in force, and a table is the
same if it is made from the same.

In which order the entries of a list come to be stored may differ from one run to the
other, and with it how often a host is there that the list repeats. Both make no
difference where no list redirects one host to two targets. -/
namespace Sinkhole.Update

open Work (upon)

variable {σ : Type} {w : World σ} {s : Setup}

/-! ### All at once -/

/-- A visit that no stop came into leaves its source to its fate. -/
theorem VisitEnds.fate (hw : Steadfast w) {generation : Int} {source : Source} {u u' : Updater σ}
    {settled : Settled} (h : VisitEnds w s generation source u settled u')
    (hgoing : u'.control.stopped = false) (v : Updater σ) (huser : source.isUser = false)
    (henabled : source.enabled = true) :
    (fate w s v source).source = settled.learned?.elim source (Store.learned source) ∧
      (settled.isKept = true → (Update.fate w s v source).entries = none) := by
  rw [fate_steady hw v u, Update.fate, huser, henabled]
  cases h with
  | updated fetched read items =>
    rw [fetched, fetchedFate_steady hw u.world _ source]
    rw [fetchedFate, readable_of_readThrough read]
    exact ⟨rfl, by simp [Settled.isKept]⟩
  | unchanged fetched =>
    rw [fetched]
    exact ⟨rfl, fun _ => rfl⟩
  | unfetched fetched =>
    rw [fetched]
    exact ⟨rfl, fun _ => rfl⟩
  | unread fetched unread broken =>
    rw [fetched, fetchedFate_steady hw u.world _ source]
    rw [fetchedFate, readable_of_broken (broken hgoing)]
    exact ⟨rfl, fun _ => rfl⟩
  | stopped halted =>
    rw [hgoing] at halted
    cases halted

theorem fate_of_brings (hw : Steadfast w) {source : Source} {u : Updater σ} {opened : Opened}
    (h : Brings w s source u opened) (v : Updater σ) (huser : source.isUser = false)
    (henabled : source.enabled = true) :
    (fate w s v source).entries =
      some (Intake.listed (Intake.Target.of source 0) opened.reading) := by
  obtain ⟨d, u', hfetch, hread⟩ := h
  rw [fate_steady hw v u, fate, huser, henabled, hfetch, fetchedFate_steady hw u.world u'.world]
  simp [fetchedFate, readable_of_readThrough hread]

section

variable {u start last : Updater σ} {visits : List (Visit σ)} {x : Source}

/-- A source that the run did not visit is the user's or is off. -/
theorem FullRun.fate_unvisited (h : FullRun w s u start visits last)
    (hgoing : last.control.stopped = false)
    (hfetchable : ∀ x ∈ u.store.enabledSources, x.isFetchable = true)
    (hx : x ∈ u.store.sources) (hnone : ∀ v ∈ visits, v.source.id ≠ x.id) :
    x.clearedIfIdle = (fate w s u x).source ∧
      (x.isUser = false → (fate w s u x).entries = some []) := by
  cases huser : x.isUser with
  | true => simp [fate, huser, Source.clearedIfIdle]
  | false =>
    have hoff : x.enabled = false := by
      refine Bool.eq_false_iff.mpr fun hon => ?_
      have henabled : x ∈ u.store.enabledSources := by simp [Store.enabledSources, hx, hon, huser]
      obtain ⟨v, hmem, he⟩ :=
        h.visited hgoing (mem_fetchable.mpr ⟨hx, hon, huser, hfetchable x henabled⟩)
      exact hnone v hmem (congrArg Source.id he)
    simp [fate, huser, hoff, Source.clearedIfIdle]

/-- A source that the run visited has what was taken over, or what it had. -/
theorem FullRun.fate_visited (hw : Steadfast w) (h : FullRun w s u start visits last)
    (hk : u.store.Keyed) (hgoing : last.control.stopped = false) {v : Visit σ} (hv : v ∈ visits) :
    v.settled.learned?.elim v.source (Store.learned v.source) = (fate w s u v.source).source ∧
      ((fate w s u v.source).Undivided → Store.SameItems ((fate w s u v.source).items
        (u.store.itemsOf v.source.id u.store.active) (u.store.active + 1))
        ((outcome u last visits).owned v.source.id)) := by
  obtain ⟨-, henabled, huser, -⟩ := mem_fetchable.mp (h.planned v hv)
  obtain ⟨hsource, hkept⟩ := (h.chain.ends h.knows v hv).fate hw
    (h.chain.going hgoing v hv) u huser henabled
  refine ⟨hsource.symm, fun hone => ?_⟩
  cases hsettled : v.settled.isKept with
  | true =>
    rw [h.owned_kept hk hv hsettled, Fate.items, hkept hsettled]
    exact .of_eq rfl
  | false =>
    cases hlearned : v.settled with
    | updated learned =>
      obtain ⟨opened, hbrings, howned⟩ := h.owned_updated hk hgoing hv hlearned
      have hlisted := fate_of_brings hw hbrings u huser henabled
      rw [howned, Fate.items, hlisted, fate_id]
      exact s.itemsFrom_same (hone _ hlisted) _ _
    | unchanged learned => simp [hlearned, Settled.isKept] at hsettled
    | failed reason => simp [hlearned, Settled.isKept] at hsettled
    | stopped => simp [hlearned, Settled.isKept] at hsettled

/-- **In a run over all sources each source comes to its fate**, if all that are on can be
fetched. -/
theorem FullRun.fates (hw : Steadfast w) (h : FullRun w s u start visits last)
    (hk : u.store.Keyed) (hgoing : last.control.stopped = false)
    (hfetchable : ∀ x ∈ u.store.enabledSources, x.isFetchable = true)
    (hx : x ∈ u.store.sources) :
    sourceAfter visits x = (fate w s u x).source ∧
      (x.isUser = false → (fate w s u x).Undivided → Store.SameItems
        ((fate w s u x).items (u.store.itemsOf x.id u.store.active) (u.store.active + 1))
        ((outcome u last visits).owned x.id)) := by
  rw [sourceAfter]
  cases hv : visitTo visits x.id with
  | none =>
    have hnone := visitTo_eq_none.mp hv
    obtain ⟨hsource, hentries⟩ := h.fate_unvisited hgoing hfetchable hx hnone
    refine ⟨hsource, fun huser _ => ?_⟩
    rw [h.owned_unvisited (beq_eq_false_iff_ne.mp huser) hnone, Fate.items, hentries huser]
    exact .of_eq rfl
  | some v =>
    obtain ⟨hmem, hid⟩ := visitTo_some hv
    obtain rfl := hk.eq_of_id (mem_fetchable.mp (h.planned v hmem)).1 hx hid
    obtain ⟨hsource, hitems⟩ := h.fate_visited hw hk hgoing hmem
    exact ⟨hsource, fun _ => hitems⟩

end

/-- The store has settled all sources as their fates say. -/
structure SettledAll (w : World σ) (s : Setup) (u : Updater σ) (after : Store) : Prop where
  active : after.active = u.store.active + 1
  sources : after.sources = u.store.sources.map fun x => (fate w s u x).source
  items : ∀ x ∈ u.store.sources, x.isUser = false → (fate w s u x).Undivided → Store.SameItems
    ((fate w s u x).items (u.store.itemsOf x.id u.store.active) after.active)
    (after.itemsOf x.id after.active)
  user : after.owned Source.userId = u.store.owned Source.userId
  synced : after.InSync

/-- **A run over all sources that commits leaves them to their fates**, if all that are on can be
fetched. -/
theorem updateAll_settled (hw : Steadfast w) {task : Option String} {u : Updater σ}
    {report : Report} (hk : u.store.Keyed)
    (hfetchable : ∀ x ∈ u.store.enabledSources, x.isFetchable = true)
    (hall : (updateAll w s task u).1 = .ok report) (hc : report.committed = true) :
    SettledAll w s u (updateAll w s task u).2.store := by
  have hsynced := updateAll_inSync w s task u hall hc
  obtain ⟨start, last, run, going, -, hstore⟩ := updateAll_committed w s task u hall hc
  rw [hstore] at hsynced ⊢
  have hadopted := run.adopted hk going
  refine ⟨hadopted.active, ?_, fun x hx huser hone => ?_, run.owned_by_user, hsynced⟩
  · rw [run.outcome_sources hk going]
    exact List.map_congr_left fun x hx => (run.fates hw hk going hfetchable hx).1
  · rw [hadopted.itemsOf_active (beq_eq_false_iff_ne.mp huser), hadopted.active]
    exact (run.fates hw hk going hfetchable hx).2 huser hone

/-! ### One by one -/

/-- Runs over these sources, each alone and one after the other, with no stop in any of them.
Whether a run failed is not looked at. -/
inductive OneByOne (w : World σ) (s : Setup) (task : Option String) :
    Updater σ → List Int → Updater σ → Prop where
  | done {u : Updater σ} : OneByOne w s task u [] u
  | turn {u last : Updater σ} {id : Int} {ids : List Int}
      (going : (updateOne w s id task u).2.control.stopped = false)
      (rest : OneByOne w s task (updateOne w s id task u).2 ids last) :
      OneByOne w s task u (id :: ids) last

/-- How things stand when the sources in `ids` have had their turn. -/
structure Partway (w : World σ) (s : Setup) (u : Updater σ) (ids : List Int) (now : Updater σ) :
    Prop where
  idle : now.running = false
  active : now.store.active = u.store.active
  sources : now.store.sources =
    u.store.sources.map fun x => if x.id ∈ ids then (fate w s u x).source else x
  waiting : ∀ x ∈ u.store.sources, x.isUser = false → x.id ∉ ids →
    now.store.itemsOf x.id u.store.active = u.store.itemsOf x.id u.store.active
  done : ∀ x ∈ u.store.sources, x.isUser = false → x.id ∈ ids → (fate w s u x).Undivided →
    Store.SameItems ((fate w s u x).items (u.store.itemsOf x.id u.store.active) u.store.active)
      (now.store.itemsOf x.id u.store.active)
  user : now.store.owned Source.userId = u.store.owned Source.userId
  upToDate : now.store.UpToDate

namespace Partway

variable {u now : Updater σ} {ids : List Int}

theorem start (hr : u.running = false) (hsynced : u.store.InSync) : Partway w s u [] u where
  idle := hr
  active := rfl
  sources := by simp
  waiting := fun _ _ _ _ => rfl
  done := fun _ _ _ hid => absurd hid List.not_mem_nil
  user := rfl
  upToDate := hsynced.upToDate

theorem ids_eq (h : Partway w s u ids now) :
    now.store.sources.map (·.id) = u.store.sources.map (·.id) := by
  rw [h.sources, List.map_map]
  refine List.map_congr_left fun x _ => ?_
  rw [Function.comp]
  split
  · exact fate_id u x
  · rfl

/-- A source that has had no turn is still the one it was. -/
theorem source_eq (h : Partway w s u ids now) {id : Int} (hid : id ∉ ids) {x : Source}
    (hs : now.store.source id = .ok x) : x ∈ u.store.sources ∧ x.id = id := by
  obtain ⟨hmem, hxid⟩ := Store.mem_of_source hs
  rw [h.sources, List.mem_map] at hmem
  obtain ⟨y, hy, rfl⟩ := hmem
  by_cases hturn : y.id ∈ ids
  · rw [if_pos hturn, fate_id] at hxid
    rw [hxid] at hturn
    exact absurd hturn hid
  · rw [if_neg hturn] at hxid ⊢
    exact ⟨hy, hxid⟩

/-- A turn for an id that no source has is none. -/
theorem skip (h : Partway w s u ids now) {id : Int} (hid : id ∉ u.store.sources.map (·.id))
    {after : Updater σ} (hidle : after.running = false) (hafter : after.store = now.store) :
    Partway w s u (id :: ids) after := by
  have hmem : ∀ x ∈ u.store.sources, x.id ∈ id :: ids ↔ x.id ∈ ids := by
    intro x hx
    have hne : x.id ≠ id := fun he => hid (he ▸ List.mem_map_of_mem hx)
    simp [hne]
  refine ⟨hidle, ?_, ?_, fun x hx huser hin => ?_, fun x hx huser hin => ?_, ?_, ?_⟩
  · rw [hafter]
    exact h.active
  · rw [hafter, h.sources]
    exact List.map_congr_left fun x hx => by simp only [hmem x hx]
  · rw [hafter]
    exact h.waiting x hx huser ((hmem x hx).not.mp hin)
  · rw [hafter]
    exact h.done x hx huser ((hmem x hx).mp hin)
  · rw [hafter]
    exact h.user
  · rw [hafter]
    exact h.upToDate

/-- A source that has its turn comes to its fate. -/
theorem settle (h : Partway w s u ids now) (hk : u.store.Keyed) {x : Source}
    (hx : x ∈ u.store.sources) (hid : x.id ∉ ids) {after : Updater σ}
    (hidle : after.running = false)
    (hsettled : SettledAs (fate w s u x) x.id now.store after.store) :
    Partway w s u (x.id :: ids) after where
  idle := hidle
  active := hsettled.active.trans h.active
  sources := by
    rw [hsettled.sources, h.sources, List.map_map]
    refine List.map_congr_left fun y hy => ?_
    rw [Function.comp]
    by_cases hyx : y.id = x.id
    · obtain rfl := hk.eq_of_id hy hx hyx
      simp [hid]
    · by_cases hturn : y.id ∈ ids
      · simp [hyx, hturn, fate_id]
      · simp [hyx, hturn]
  waiting := by
    intro y hy huser hy'
    have hyx : y.id ≠ x.id := List.ne_of_not_mem_cons hy'
    have hturn : y.id ∉ ids := List.not_mem_of_not_mem_cons hy'
    have hother := hsettled.others y.id hyx (beq_eq_false_iff_ne.mp huser)
    rw [h.active] at hother
    exact hother.trans (h.waiting y hy huser hturn)
  done := by
    intro y hy huser hy' hone
    by_cases hyx : y.id = x.id
    · obtain rfl := hk.eq_of_id hy hx hyx
      have hitems := hsettled.items (beq_eq_false_iff_ne.mp huser) hone
      rwa [h.active, h.waiting y hy huser hid] at hitems
    · have hother := hsettled.others y.id hyx (beq_eq_false_iff_ne.mp huser)
      rw [h.active] at hother
      rw [hother]
      exact h.done y hy huser (List.mem_of_ne_of_mem hyx hy') hone
  user := hsettled.user.trans h.user
  upToDate := hsettled.upToDate h.upToDate

/-- One more source has its turn. -/
theorem turn (h : Partway w s u ids now) (hw : Steadfast w) (hk : u.store.Keyed)
    (havailable : ∀ x ∈ u.store.enabledSources, isAvailable w x = true) {task : Option String}
    {id : Int} (hid : id ∉ ids) (hgoing : (updateOne w s id task now).2.control.stopped = false) :
    Partway w s u (id :: ids) (updateOne w s id task now).2 := by
  have hidle : (updateOne w s id task now).2.running = false :=
    Work.supervised_running task _ h.idle
  cases hs : now.store.source id with
  | error e =>
    refine h.skip ?_ hidle (updateOne_unknown w s task hs)
    rw [← h.ids_eq]
    exact Store.not_mem_of_source hs
  | ok x =>
    obtain ⟨hx, rfl⟩ := h.source_eq hid hs
    have hkeyed : now.store.Keyed := by
      rw [Store.Keyed, h.ids_eq]
      exact hk
    refine h.settle hk hx hid hidle ?_
    rw [fate_steady hw u now]
    refine updateOne_settledAs hw task h.idle hkeyed hs (fun hon => havailable x ?_) hgoing
    exact List.mem_filter.mpr ⟨hx, (List.mem_filter.mp hon).2⟩

end Partway

/-- **Runs over one source each, in any order, leave the sources to their fates.** -/
theorem OneByOne.partway (hw : Steadfast w) {u now last : Updater σ} {task : Option String}
    (hk : u.store.Keyed) (havailable : ∀ x ∈ u.store.enabledSources, isAvailable w x = true)
    {ids order : List Int} (h : OneByOne w s task now order last) (hnow : Partway w s u ids now)
    (hn : (ids.reverse ++ order).Nodup) : Partway w s u (order.reverse ++ ids) last := by
  induction h generalizing ids with
  | done => exact hnow
  | @turn now last id order going rest ih =>
    have hid : id ∉ ids := fun hmem =>
      (List.nodup_append.mp hn).2.2 id (List.mem_reverse.mpr hmem) id List.mem_cons_self rfl
    have hnext := ih (hnow.turn hw hk havailable hid going) (by simpa using hn)
    simpa using hnext

/-! ### Both ways -/

/-- The same table, the same known of each source, and the same items of each in force. -/
structure Agree (s s' : Store) : Prop where
  table : s'.table = s.table
  sources : s'.sources = s.sources
  items : ∀ x ∈ s.sources, x.isUser = false →
    Store.SameItems (s.itemsOf x.id s.active) (s'.itemsOf x.id s'.active)
  user : s'.owned Source.userId = s.owned Source.userId

/-- **In a steadfast world updating the sources in place, one by one and in any order, comes to
what updating all of them at once comes to**: if that commits, and if every source that is on
can be fetched and none of their lists redirects a host to two targets, it makes no difference that
a run over one source may fail. -/
theorem oneByOne_agrees (hw : Steadfast w) {u last : Updater σ} {task task' : Option String}
    {report : Report} {order : List Int} (hk : u.store.Keyed) (hsynced : u.store.InSync)
    (havailable : ∀ x ∈ u.store.enabledSources, isAvailable w x = true)
    (hundivided : ∀ x ∈ u.store.enabledSources, (fate w s u x).Undivided)
    (hall : (updateAll w s task u).1 = .ok report) (hc : report.committed = true)
    (hone : OneByOne w s task' u order last) (hn : order.Nodup)
    (hevery : ∀ x ∈ u.store.sources, x.isUser = false → x.id ∈ order) :
    Agree (updateAll w s task u).2.store last.store := by
  have hfetchable : ∀ x ∈ u.store.enabledSources, x.isFetchable = true := fun x hx =>
    (Bool.and_eq_true_iff.mp (havailable x hx)).1
  have hfull := updateAll_settled hw hk hfetchable hall hc
  have hpart := hone.partway hw hk havailable (.start (idle_of_updateAll hall) hsynced)
    (by simpa using hn)
  generalize (updateAll w s task u).2.store = full at hfull ⊢
  -- a source that is not fetched takes no list over that could be divided
  have hevery' : ∀ x ∈ u.store.sources, x.isUser = false → (fate w s u x).Undivided := by
    intro x hx huser
    cases henabled : x.enabled with
    | true => exact hundivided x (by simp [Store.enabledSources, hx, henabled, huser])
    | false =>
      rw [fate, huser, henabled]
      rintro entries ⟨⟩
      exact fun _ _ _ hmem => absurd hmem List.not_mem_nil
  have hsources : last.store.sources = full.sources := by
    rw [hpart.sources, hfull.sources]
    refine List.map_congr_left fun x hx => ?_
    cases huser : x.isUser with
    | true => simp [fate, huser]
    | false => simp [hevery x hx huser]
  have hitems : ∀ x ∈ full.sources, x.isUser = false →
      Store.SameItems (full.itemsOf x.id full.active)
        (last.store.itemsOf x.id last.store.active) := by
    intro y hy huser
    rw [hfull.sources, List.mem_map] at hy
    obtain ⟨x, hx, rfl⟩ := hy
    rw [Source.isUser, fate_id] at huser
    have hatOnce := hfull.items x hx huser (hevery' x hx huser)
    have hinTurn := hpart.done x hx huser (by simp [hevery x hx huser]) (hevery' x hx huser)
    have hsame : Store.SameItems
        ((fate w s u x).items (u.store.itemsOf x.id u.store.active) full.active)
        ((fate w s u x).items (u.store.itemsOf x.id u.store.active) u.store.active) := by
      rw [← (fate w s u x).items_within _ full.active u.store.active]
      exact .within _ _
    rw [fate_id, hpart.active]
    exact (hatOnce.symm.trans hsame).trans hinTurn
  have huser := hpart.user.trans hfull.user.symm
  -- both tables are up to date, so they are the same if what they are made from is
  have halike : Store.Alike full last.store :=
    ⟨by rw [hsources], fun x hx hid => hitems x hx (beq_eq_false_iff_ne.mpr hid), huser⟩
  have hmade : last.store.isRefused = false := halike.isRefused_eq.trans hfull.synced.1
  have htable : last.store.table = full.table :=
    (hpart.upToDate hmade).trans (halike.rebuild_eq.trans hfull.synced.2.symm)
  exact ⟨htable, hsources, hitems, huser⟩

/-- The sources of `assorted` that are of a known kind, with a table that is up to date. -/
def tidy : Store :=
  { assorted with
    sources := assorted.sources.filter (·.id != 6)
    items := assorted.items.filter (·.source != 6) }.synced

def atTidyDesk : Updater Unit := { store := tidy, world := () }

/-- The four sources of `tidy`, of which one fails, at once and one by one. -/
theorem oneByOne_agrees_tidy :
    Steadfast shelf ∧ tidy.Keyed ∧ tidy.InSync ∧
      (updateAll shelf plain none atTidyDesk).1 = .ok assortedReport ∧
      (updateOne shelf plain 4 none atTidyDesk).1 = .error (.io "no such file") ∧
      ∃ last, OneByOne shelf plain none atTidyDesk [4, 2, 5, 3] last ∧
        Agree (updateAll shelf plain none atTidyDesk).2.store last.store := by
  have hsteadfast : Steadfast shelf :=
    ⟨fun _ _ _ => rfl, fun _ _ _ => rfl, fun _ _ _ => rfl, fun _ _ _ => rfl⟩
  have hkeyed : tidy.Keyed := by decide
  have hsynced : tidy.InSync := Store.synced_inSync (by decide +kernel)
  have hundivided : ∀ x ∈ tidy.enabledSources, (fate shelf plain atTidyDesk x).Undivided := by
    decide +kernel
  have hall : (updateAll shelf plain none atTidyDesk).1 = .ok assortedReport := by decide +kernel
  have hone : OneByOne shelf plain none atTidyDesk [4, 2, 5, 3] _ :=
    .turn (by decide +kernel) (.turn (by decide +kernel)
      (.turn (by decide +kernel) (.turn (by decide +kernel) .done)))
  exact ⟨hsteadfast, hkeyed, hsynced, hall, by decide +kernel, _, hone,
    oneByOne_agrees hsteadfast hkeyed hsynced (by decide +kernel) hundivided hall rfl hone
      (by decide) (by decide +kernel)⟩

end Sinkhole.Update
