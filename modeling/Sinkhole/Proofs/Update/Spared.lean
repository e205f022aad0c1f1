import Sinkhole.Proofs.Store.Registered
import Sinkhole.Proofs.Update.Adopted
import Sinkhole.Proofs.Update.One

/-! What a run over one source does to that source's items, and to nothing else.

An earlier run that was stopped may have left items under the generation that is staged
next, of this source and of others. The run stages its own items there. If it takes them
over they are moved from there into the active generation; if it cannot read them
through, or is stopped, they are taken out again. In both cases nothing of the source is
left behind, and in all cases the items of every other source are where they were. -/
namespace Sinkhole.Update

open Work (upon)

variable {σ : Type} {w : World σ} {s : Setup}

/-- All is as it was but for the items of one source, what is known of its content, and the
table. -/
structure Spares (id : Int) (before after : Store) : Prop where
  active : after.active = before.active
  lastId : after.lastId = before.lastId
  /-- Nothing new is known of other sources. -/
  others : after.sources.filter (·.id != id) = before.sources.filter (·.id != id)
  /-- Every source, this one as well, is registered as it was. -/
  registered : after.registrations = before.registrations
  items : ∀ other, other ≠ id → after.owned other = before.owned other
  user : after.owned Source.userId = before.owned Source.userId

namespace Spares

variable {id : Int} {before middle after : Store}

theorem refl (id : Int) (s : Store) : Spares id s s := ⟨rfl, rfl, rfl, rfl, fun _ _ => rfl, rfl⟩

theorem trans (h : Spares id before middle) (h' : Spares id middle after) :
    Spares id before after where
  active := h'.active.trans h.active
  lastId := h'.lastId.trans h.lastId
  others := h'.others.trans h.others
  registered := h'.registered.trans h.registered
  items := fun other hne => (h'.items other hne).trans (h.items other hne)
  user := h'.user.trans h.user

theorem synced (id : Int) (s : Store) : Spares id s s.synced :=
  ⟨rfl, rfl, rfl, rfl, fun _ _ => rfl, rfl⟩

theorem durability (id : Int) (s : Store) (d : Durability) :
    Spares id s { s with durability := d } := ⟨rfl, rfl, rfl, rfl, fun _ _ => rfl, rfl⟩

/-- What is done to items of the source. -/
theorem of_changes (hu : id ≠ Source.userId)
    (h : Store.ChangesOnly (·.source == id) before after) : Spares id before after where
  active := h.active
  lastId := h.lastId
  others := by rw [h.sources]
  registered := by rw [Store.registrations, h.sources, Store.registrations]
  items := fun _ hne => h.owned_of_ne hne
  user := h.owned_of_ne hu.symm

/-- What is learned of the source's content. -/
theorem modify (id : Int) (s : Store) {f : Source → Source}
    (hf : ∀ x, (f x).id = x.id ∧ (f x).registration = x.registration) :
    Spares id s (s.modifySource id f) where
  active := rfl
  lastId := rfl
  others := s.modifySource_filter fun x _ hid => by simp [(hf x).1, hid]
  registered := s.modifySource_map fun x => by rw [(hf x).1, (hf x).2]
  items := fun _ _ => rfl
  user := rfl

theorem replace (hu : id ≠ Source.userId) (s : Store) (active : Int) (learned : Metadata) :
    Spares id s (Update.replace s id active learned) :=
  (of_changes hu (s.promote_changes id (active + 1) active)).trans
    (modify id _ (f := (Store.learned · learned)) fun _ => ⟨rfl, rfl⟩)

theorem forget (hu : id ≠ Source.userId) (s : Store) : Spares id s (Update.forget s id) :=
  (of_changes hu (s.clearAll_changes id)).trans
    (modify id _ (f := Source.unread) fun _ => ⟨rfl, rfl⟩)

/-- A source that is not fetched is cleared, unless it is the user's. -/
theorem unfetched (source : Source) (s : Store) :
    Spares source.id s (Update.unfetched source s).synced := by
  refine .trans ?_ (.synced source.id _)
  unfold Update.unfetched
  split
  · exact .refl _ s
  · rename_i huser
    exact .forget (fun hid => huser (beq_iff_eq.mpr hid)) s

end Spares

/-- A source that is fetched and how it comes out are no other source's business. -/
theorem OneEnds.spares {source : Source} {active : Int} {fetched : Except Error Fetch.Fetched}
    {u₁ u' : Updater σ} {r : Except Error Report}
    (h : OneEnds w s source active fetched u₁ r u') (hu : source.id ≠ Source.userId) :
    Spares source.id u₁.store u'.store := by
  cases h with
  | lost e e' m => exact .refl _ u₁.store
  | unchanged remoteModified m =>
    dsimp only
    split
    · exact .modify source.id u₁.store
        (f := ({ · with remoteModified := remoteModified.map (·.micros) })) fun _ => ⟨rfl, rfl⟩
    · exact .refl _ u₁.store
  | @updated _ u₂ _ d opened m read confined | @untabled _ u₂ d opened m read confined =>
    exact ((Spares.of_changes hu confined.store.ofSource).trans
      (.replace hu u₂.store active (newMetadata d))).trans (.synced source.id _)
  | dropped d unread confined => exact .of_changes hu confined.store.ofSource

/-! ### What becomes of the source's items -/

/-- A run that was stopped, or that could not read the content to its end. -/
def isDropped : Except Error Report → Bool
  | .error e => e.isParseFailure
  | .ok report => report.stopped

/-- The items that a content comes to are the same ones in another generation. -/
theorem itemsFrom_within (s : Setup) (source : Source) (generation other : Int) (opened : Opened) :
    (s.itemsFrom source generation opened).map (Item.within other) =
      s.itemsFrom source other opened := by
  rw [Setup.itemsFrom_eq, Setup.itemsFrom_eq, List.map_map]
  rfl

namespace OneEnds

variable {source : Source} {active : Int} {fetched : Except Error Fetch.Fetched}
  {u₁ u' : Updater σ} {r : Except Error Report}

/-- A source that is taken over has what its content comes to, moved from where it was staged. -/
theorem updated_items (h : OneEnds w s source active fetched u₁ r u') {report : Report}
    (hreport : r = .ok report) (hcommit : report.committed = true) (hupdated : report.updated = 1) :
    ∃ d opened, fetched = .ok (.downloaded d) ∧ ReadThrough w d.content u₁ opened ∧
      u'.store.itemsOf source.id active = s.itemsFrom source active opened ∧
      u'.store.itemsOf source.id (active + 1) = [] := by
  cases h with
  | lost e e' m => cases hreport
  | unchanged remoteModified m =>
    cases hreport
    cases hupdated
  | @updated _ u₂ _ d opened m read confined _ hunchanged items =>
    refine ⟨d, opened, rfl, read, ?_, u₂.store.promote_itemsOf_staged (by omega)⟩
    refine (u₂.store.promote_itemsOf (by omega)).trans ?_
    rw [items, itemsFrom_within]
  | untabled d opened m read => cases hreport
  | dropped d unread confined unfinished =>
    subst hreport
    rw [unfinished.2] at hcommit
    cases hcommit

/-- What was staged is taken out again, and with it what was there before. -/
theorem dropped_items (h : OneEnds w s source active fetched u₁ r u') (hr : isDropped r = true) :
    u'.store.itemsOf source.id active = u₁.store.itemsOf source.id active ∧
      u'.store.itemsOf source.id (active + 1) = [] := by
  cases h with
  | lost e e' m early =>
    rw [isDropped, (Bool.or_eq_false_iff.mp early).1] at hr
    cases hr
  | unchanged remoteModified m => cases hr
  | updated d opened m read confined hcommit hunchanged items hgoing =>
    rw [isDropped, hgoing] at hr
    cases hr
  | untabled d opened m read => cases hr
  | dropped d unread confined unfinished broken emptied =>
    exact ⟨confined.store.itemsOf_of_staged (by omega), emptied⟩

end OneEnds

/-- What a run over one source has made of the store, by what the run came to. -/
structure InPlace (w : World σ) (s : Setup) (id : Int) (task : Option String) (u : Updater σ)
    (r : Except Error Report) (after : Store) : Prop where
  spares : Spares id u.store after
  /-- What is in force of the source is what the run itself has read. -/
  updated : ∀ report, r = .ok report → report.committed = true → report.updated = 1 →
    ∃ source opened, u.store.source id = .ok source ∧
      Brings w s source (atFetch task source u) opened ∧
      after.itemsOf id u.store.active = s.itemsFrom source u.store.active opened ∧
      after.itemsOf id (u.store.active + 1) = []
  dropped : isDropped r = true → after.itemsOf id u.store.active =
      u.store.itemsOf id u.store.active ∧ after.itemsOf id (u.store.active + 1) = []

/-- **A run over one source replaces its items by what it has read, or keeps them, and leaves
nothing staged where it has tried**; whatever it comes to, it spares all other sources. -/
theorem updateOne_inPlace (w : World σ) (s : Setup) (id : Int) (task : Option String)
    (u : Updater σ) :
    InPlace w s id task u (updateOne w s id task u).1 (updateOne w s id task u).2.store := by
  have hends := updateOne_ends w s id task u
  generalize (updateOne w s id task u).1 = r at hends ⊢
  generalize (updateOne w s id task u).2.store = after at hends ⊢
  generalize (updateOne w s id task u).2.control.stopped = halted at hends
  cases hends with
  | refused hr => exact ⟨.refl id u.store, fun _ h => (nomatch h), fun h => (nomatch h)⟩
  | early e why early =>
    refine ⟨.refl id u.store, fun _ h => (nomatch h), fun h => ?_⟩
    rw [isDropped, (Bool.or_eq_false_iff.mp early).1] at h
    cases h
  | @refreshed source report hs hidle hcommit hunchanged hgoing =>
    obtain ⟨-, rfl⟩ := Store.mem_of_source hs
    refine ⟨.unfetched source u.store, fun other hother _ hupdated => ?_, fun h => ?_⟩
    · cases hother
      rw [hgoing.1] at hupdated
      cases hupdated
    · rw [isDropped, hgoing.2] at h
      cases h
  | @untabled source hs =>
    obtain ⟨-, rfl⟩ := Store.mem_of_source hs
    exact ⟨.unfetched source u.store, fun _ h => (nomatch h), fun h => (nomatch h)⟩
  | @fetched source r u' hr hs huser ends henabled =>
    obtain ⟨-, rfl⟩ := Store.mem_of_source hs
    have hid : source.id ≠ Source.userId := beq_eq_false_iff_ne.mp huser
    have hrelaxed := Fetch.fetch_store w s.fetch source (atFetch task source u)
    have hspares := ends.spares hid
    have hdropped := ends.dropped_items
    rw [hrelaxed] at hspares hdropped
    refine ⟨((Spares.durability _ u.store .relaxed).trans hspares).trans (.durability _ _ .normal),
      fun report hreport hcommit hupdated => ?_, hdropped⟩
    obtain ⟨d, opened, hfetched, read, hitems⟩ := ends.updated_items hreport hcommit hupdated
    exact ⟨source, opened, hs, ⟨d, _, Prod.ext hfetched rfl, read⟩, hitems⟩

/-- Files that are all there and break off behind their first line. -/
def torn : World Unit :=
  { shelf with
    facts := fun _ _ =>
      { answer := .ok { modified := some (.ofMicros 6), size := 4 }, world := () }
    openFile := fun _ _ =>
      { answer := .ok { reading := { bytes := [97, 46, 98, 10], fault := some "reset" } }
        world := () } }

/-- A source that is taken over, and one that cannot be read to its end and for which an earlier
run has left an item. -/
theorem updateOne_inPlace_assorted :
    (updateOne shelf plain 2 none atDesk).1 = .ok
        { generation := 7, committed := true, updated := 1, hostsParsed := 1
          summary := some { blocked := 4 } } ∧
      (updateOne shelf plain 2 none atDesk).2.store.itemsOf 2 7 =
        [{ source := 2, generation := 7, host := "a.b", kind := 0 }] ∧
      InPlace shelf plain 2 none atDesk (updateOne shelf plain 2 none atDesk).1
        (updateOne shelf plain 2 none atDesk).2.store ∧
      (updateOne torn plain 4 none atDesk).1 =
        .error (.parseFailure "gone" "Parse failure in gone: reset") ∧
      assorted.itemsOf 4 8 ≠ [] ∧
      (updateOne torn plain 4 none atDesk).2.store.itemsOf 4 8 = [] := by
  have hfailed : (updateOne torn plain 4 none atDesk).1 =
      .error (.parseFailure "gone" "Parse failure in gone: reset") := by decide +kernel
  have hin := updateOne_inPlace torn plain 4 none atDesk
  exact ⟨by decide +kernel, by decide +kernel, updateOne_inPlace shelf plain 2 none atDesk,
    hfailed, by decide, (hin.dropped (by rw [hfailed]; rfl)).2⟩

end Sinkhole.Update
