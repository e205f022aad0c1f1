import Sinkhole.Proofs.Update.Steady
import Sinkhole.Proofs.Update.Synced

/-! What a run over one source makes of the store.

The items of the source in the active generation are replaced where its content was
taken over, and are left there where it was not; what is known of the source is learned
or not in step with that. `SettledAs` says it by the source's fate, with all that the
run leaves alone. -/
namespace Sinkhole.Update

open Work (upon)

variable {σ : Type} {w : World σ} {s : Setup}

/-- The store has settled a source as its fate says and has left all other sources alone. -/
structure SettledAs (f : Fate) (id : Int) (before after : Store) : Prop where
  active : after.active = before.active
  sources : after.sources = before.sources.map fun x => if x.id == id then f.source else x
  items : id ≠ Source.userId → f.Undivided → Store.SameItems
    (f.items (before.itemsOf id before.active) before.active) (after.itemsOf id before.active)
  others : ∀ other, other ≠ id → other ≠ Source.userId →
    after.itemsOf other before.active = before.itemsOf other before.active
  user : after.owned Source.userId = before.owned Source.userId
  upToDate : before.UpToDate → after.UpToDate

namespace SettledAs

variable {before after : Store} {x : Source}

theorem map_self (hk : before.Keyed) (hx : x ∈ before.sources) :
    (before.sources.map fun y => if y.id == x.id then x else y) = before.sources := by
  rw [← hk.modifySource_sources hx fun y => y]
  simp [Store.modifySource]

/-- What was there is the same in the generation it was in. -/
theorem same_held (s : Store) (source : Source) (id : Int) :
    Store.SameItems ((⟨source, none⟩ : Fate).items (s.itemsOf id s.active) s.active)
      (s.itemsOf id s.active) :=
  (Store.SameItems.within _ _).symm

/-- A source that keeps all it has while the table is made anew. -/
theorem refreshed (hk : before.Keyed) (hx : x ∈ before.sources) :
    SettledAs ⟨x, none⟩ x.id before before.synced where
  active := rfl
  sources := (map_self hk hx).symm
  items := fun _ _ => same_held before x x.id
  others := fun _ _ _ => rfl
  user := rfl
  upToDate := fun _ => Store.synced_upToDate _

/-- A source that keeps its items, with no change but to what is known of it. -/
theorem modify (hk : before.Keyed) (hx : x ∈ before.sources) {f : Source → Source}
    (hf : ∀ x, (f x).id = x.id ∧ (f x).enabled = x.enabled) :
    SettledAs ⟨f x, none⟩ x.id before (before.modifySource x.id f) where
  active := rfl
  sources := hk.modifySource_sources hx f
  items := fun _ _ => same_held before (f x) x.id
  others := fun _ _ _ => rfl
  user := rfl
  upToDate := (Store.modifySource_alike hf).upToDate rfl

/-- A source that comes to nothing new, whatever was staged for it. -/
theorem kept (hk : before.Keyed) (hx : x ∈ before.sources) (huser : x.id ≠ Source.userId)
    (h : Store.ChangesOnly (·.isOf x.id (before.active + 1)) before after) :
    SettledAs ⟨x, none⟩ x.id before after where
  active := h.active
  sources := h.sources.trans (map_self hk hx).symm
  items := by
    intro _ _
    rw [h.itemsOf_of_staged (by omega)]
    exact same_held before x x.id
  others := fun _ _ _ => h.itemsOf_of_staged (by omega)
  user := h.ofSource.owned_of_ne huser.symm
  upToDate := (h.alike huser (by omega)).upToDate h.table

/-- A source whose staged items are moved into place. -/
theorem replaced (hk : before.Keyed) (hx : x ∈ before.sources) (huser : x.id ≠ Source.userId)
    (h : Store.ChangesOnly (·.isOf x.id (before.active + 1)) before after) {opened : Opened}
    (hitems : after.itemsOf x.id (before.active + 1) = s.itemsFrom x (before.active + 1) opened)
    (m : Metadata) :
    SettledAs ⟨Store.learned x m, some (Intake.listed (Intake.Target.of x 0) opened.reading)⟩ x.id
      before (replace after x.id before.active m).synced := by
  have hmoved := h.ofSource.trans (after.promote_changes x.id (before.active + 1) before.active)
  refine ⟨hmoved.active, ?_, fun _ hone => ?_, fun _ hother _ => hmoved.itemsOf_of_ne hother,
    hmoved.owned_of_ne huser.symm, fun _ => Store.synced_upToDate _⟩
  · show (after.modifySource x.id (Store.learned · m)).sources = _
    rw [Store.modifySource, h.sources]
    exact hk.modifySource_sources hx (Store.learned · m)
  · show Store.SameItems _
      ((after.promote x.id (before.active + 1) before.active).2.itemsOf x.id before.active)
    rw [after.promote_itemsOf (by omega), hitems]
    exact (s.itemsFrom_same (hone _ rfl) _ _).trans (.within _ _)

/-- A source that is off is cleared. -/
theorem cleared (hk : before.Keyed) (hx : x ∈ before.sources) (huser : x.id ≠ Source.userId) :
    SettledAs ⟨x.unread, some []⟩ x.id before (forget before x.id).synced where
  active := rfl
  sources := hk.modifySource_sources hx Source.unread
  items := by
    intro _ _
    show Store.SameItems [] ((forget before x.id).itemsOf x.id before.active)
    rw [show (forget before x.id).itemsOf x.id before.active = [] from
      before.clearAll_itemsOf x.id before.active]
    exact .of_eq rfl
  others := fun _ hother _ => (before.clearAll_changes x.id).itemsOf_of_ne hother
  user := (before.clearAll_changes x.id).owned_of_ne huser.symm
  upToDate := fun _ => Store.synced_upToDate _

end SettledAs

/-! ### A fetched source -/

/-- A source that was fetched and that no stop came into comes to its fate. -/
theorem OneEnds.settledAs (hw : Steadfast w) {source : Source} {u u' : Updater σ}
    {fetched : Except Error Fetch.Fetched} {r : Except Error Report}
    (h : OneEnds w s source u.store.active fetched u r u')
    (hgoing : u'.control.stopped = false) (hk : u.store.Keyed) (hx : source ∈ u.store.sources)
    (huser : source.id ≠ Source.userId) (v : σ) :
    SettledAs (fetchedFate w v source fetched) source.id u.store u'.store := by
  rw [fetchedFate_steady hw v u.world]
  cases h with
  | lost e e' m => exact .kept hk hx huser (.refl _ u.store)
  | unchanged remoteModified m =>
    rw [fetchedFate]
    cases remoteModified with
    | none => exact .kept hk hx huser (.refl _ u.store)
    | some time =>
      exact SettledAs.modify hk hx (f := ({ · with remoteModified := some time.micros }))
        fun _ => ⟨rfl, rfl⟩
  | updated d opened m read confined hcommit hunchanged items
  | untabled d opened m read confined items =>
    rw [fetchedFate, readable_of_readThrough read]
    exact .replaced hk hx huser confined.store items (newMetadata d)
  | dropped d unread confined unfinished broken =>
    rw [fetchedFate, readable_of_broken (broken hgoing)]
    exact .kept hk hx huser confined.store

/-! ### Whole runs -/

/-- **A run over one source that no stop came into leaves the source to its fate**, and all else
as it was, if the source is one that can be fetched. -/
theorem updateOne_settledAs (hw : Steadfast w) (task : Option String) {u : Updater σ}
    (hr : u.running = false) (hk : u.store.Keyed) {id : Int} {source : Source}
    (hs : u.store.source id = .ok source)
    (havailable : source ∈ u.store.enabledSources → isAvailable w source = true)
    (hgoing : (updateOne w s id task u).2.control.stopped = false) :
    SettledAs (fate w s u source) source.id u.store (updateOne w s id task u).2.store := by
  have hends := updateOne_ends w s id task u
  have hmem := (Store.mem_of_source hs).1
  generalize (updateOne w s id task u).1 = r at hends
  generalize (updateOne w s id task u).2.store = after at hends ⊢
  generalize (updateOne w s id task u).2.control.stopped = halted at hends hgoing
  cases hends with
  | refused hrunning =>
    rw [hr] at hrunning
    cases hrunning
  | early e why =>
    obtain ⟨huser, henabled, hmissing⟩ := why source hs
    have hplanned : source ∈ u.store.enabledSources := by
      simp [Store.enabledSources, hmem, henabled, huser]
    rw [havailable hplanned] at hmissing
    cases hmissing
  | @refreshed found _ hs' hidle hcommit hunchanged | @untabled found hs' hidle =>
    obtain rfl : source = found := by
      rw [hs] at hs'
      exact Except.ok.inj hs'
    cases huser : source.isUser with
    | true =>
      have hkept : fate w s u source = ⟨source, none⟩ := by simp [fate, huser]
      rw [hkept, unfetched, huser]
      exact .refreshed hk hmem
    | false =>
      have hoff : source.enabled = false := by simpa [huser] using hidle
      have hcleared : fate w s u source = ⟨source.unread, some []⟩ := by simp [fate, huser, hoff]
      rw [hcleared, unfetched, huser]
      exact .cleared hk hmem (beq_eq_false_iff_ne.mp huser)
  | @fetched found _ u' hr hs' huser ends henabled =>
    obtain rfl : source = found := by
      rw [hs] at hs'
      exact Except.ok.inj hs'
    have hstore := Fetch.fetch_store w s.fetch source (atFetch task source u)
    have hfate : fate w s u source = fetchedFate w u.world source
        (upon (Fetch.fetch w s.fetch source) (atFetch task source u)).1 := by
      rw [fate, huser, henabled, fetch_steady hw source u (atFetch task source u)]
      rfl
    rw [hfate]
    generalize upon (Fetch.fetch w s.fetch source) (atFetch task source u) = answered
      at ends hstore
    obtain ⟨fetched, u₁⟩ := answered
    have hrelaxed : u₁.store = { u.store with durability := .relaxed } := hstore
    have hactive : u₁.store.active = u.store.active := by rw [hrelaxed]
    rw [← hactive] at ends
    have hsettled := ends.settledAs hw hgoing (by rw [hrelaxed]; exact hk)
      (by rw [hrelaxed]; exact hmem) (beq_eq_false_iff_ne.mp huser) u.world
    rw [hrelaxed] at hsettled
    exact ⟨hsettled.active, hsettled.sources, hsettled.items, hsettled.others, hsettled.user,
      hsettled.upToDate⟩

end Sinkhole.Update
