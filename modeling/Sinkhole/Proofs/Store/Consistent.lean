import Sinkhole.Proofs.Store.Operation
import Sinkhole.Proofs.Store.Registered
import Sinkhole.Proofs.Store.Rebuild

/-! What holds of a store whatever was asked of it.

The user's source is there under its id, ids and locations are keys of the sources, no
item is without a source, the user has one item a host, and the table has one row a host
(`Consistent`). An operation that is carried out is one of a few changes (`Change`), and
each of those keeps all of it. Ids only go up: a source that is new has one beyond all
that were given out, so over a whole history no id is given out twice. -/
namespace Sinkhole

/-- Whose an item is, and for which host. -/
def Item.holding (i : Item) : Int × String := (i.source, i.host)

namespace Store

/-- The sources as they are told apart: their ids and locations. -/
def places (s : Store) : List (Int × String) := s.sources.map fun x => (x.id, x.location)

/-- The facts that no operation breaks. -/
structure Consistent (s : Store) : Prop where
  distinct : s.Distinct
  user : (Source.userId, Location.userText) ∈ s.places
  owned : ∀ i ∈ s.items, s.knows i.source = true
  once : ((s.owned Source.userId).map (·.host)).Nodup
  rows : (s.table.map (·.host)).Nodup

/-- What an operation that is carried out makes of a store. -/
inductive Change (s : Store) : Store → Prop where
  /-- Something is known about sources, or about the generation in force. -/
  | informed {s' : Store} (places : s'.places = s.places) (given : s.lastId ≤ s'.lastId)
      (items : s'.items = s.items) (table : s'.table = s.table) : Change s s'
  | registered (r : Registration) (unused : ∀ x ∈ s.sources, x.location ≠ placeOf r) :
      Change s { s with
        sources := s.sources ++ [newSource (s.lastId + 1) r]
        lastId := s.lastId + 1 }
  | removed {id : Int} (other : id ≠ Source.userId) :
      Change s { s with
        sources := s.sources.filter (·.id != id)
        items := s.items.filter (·.source != id) }
  /-- Items went, or are in another generation. -/
  | thinned {items : List Item}
      (fewer : (items.map Item.holding).Sublist (s.items.map Item.holding)) :
      Change s { s with items }
  /-- A source that is not the user's has other items. -/
  | filled {s' : Store} {id : Int} (changes : ChangesOnly (·.source == id) s s')
      (other : id ≠ Source.userId) (owner : ∀ i ∈ s'.items, i.source = id → s.knows id = true) :
      Change s s'
  | entered (e : Entry) (owner : s.knows Source.userId = true) :
      Change s { s with items := s.items.filter (!isUserItemFor e.host ·) ++
        [Item.ofEntry Source.userId userGeneration e] }
  | tabulated : Change s { s with table := s.rebuild.2 }

section

variable {s : Store}

theorem places_ids : s.places.map Prod.fst = s.sources.map (·.id) := List.map_map ..

theorem places_locations : s.places.map Prod.snd = s.sources.map (·.location) := List.map_map ..

theorem modifySource_places {id : Int} {f : Source → Source} (hid : ∀ x, (f x).id = x.id)
    (hlocation : ∀ x, (f x).location = x.location) :
    (s.modifySource id f).places = s.places :=
  s.modifySource_map (g := fun x => (x.id, x.location)) fun x => by rw [hid, hlocation]

/-- What is learned about a source does not move it. -/
theorem updateMetadata_places (id : Int) (m : Metadata) :
    (s.updateMetadata id m).places = s.places := modifySource_places (fun _ => rfl) fun _ => rfl

theorem foldl_updateMetadata_places (learned : List (Int × Metadata)) (s : Store) :
    (learned.foldl (fun s (id, m) => s.updateMetadata id m) s).places = s.places := by
  induction learned generalizing s with
  | nil => rfl
  | cons l learned ih => exact (ih (s.updateMetadata l.1 l.2)).trans (updateMetadata_places l.1 l.2)

theorem modifySource_change {id : Int} {f : Source → Source} (hid : ∀ x, (f x).id = x.id)
    (hlocation : ∀ x, (f x).location = x.location) : s.Change (s.modifySource id f) :=
  .informed (modifySource_places hid hlocation) (Int.le_refl _) rfl rfl

theorem filter_change (p : Item → Bool) : s.Change { s with items := s.items.filter p } :=
  .thinned (List.filter_sublist.map _)

/-- What is moved belongs to whom it did, and is for the host it was. -/
theorem promote_change (source staged new : Int) :
    s.Change (s.promote source staged new).2 := by
  refine .thinned ?_
  rw [List.map_map]
  have hsame : Item.holding ∘ (fun i : Item =>
      if i.isOf source staged then { i with generation := new } else i) = Item.holding := by
    funext i
    rw [Function.comp]
    split <;> rfl
  rw [hsame]
  exact List.filter_sublist.map _

end

/-! ### Operations are changes -/

/-- Whether an operation puts items in for the user past `addUser`. -/
def Operation.fillsUser (s : Store) : Operation → Bool
  | .insertItems source _ entries => source == Source.userId && !entries.isEmpty
  | .carryForward source old new =>
    source == Source.userId && (old != new && !(s.itemsOf source old).isEmpty)
  | _ => false

theorem of_map_ok {α β : Type} {f : α → β} {r : Except Error α} {b : β} (h : r.map f = .ok b) :
    ∃ a, r = .ok a ∧ f a = b := by
  cases r with
  | error e => cases h
  | ok a =>
    cases h
    exact ⟨a, rfl, rfl⟩

section

variable {s s' : Store}

theorem add_change {r : Registration} {id : Int} (h : s.add r = .ok (id, s')) : s.Change s' := by
  unfold add at h
  split at h
  · cases h
  · rename_i hunused
    cases h
    refine .registered r fun x hx hloc => hunused (List.any_eq_true.mpr ⟨x, hx, ?_⟩)
    exact beq_iff_eq.mpr hloc

theorem upsert_change (s : Store) (r : Registration) : s.Change (s.upsert r).2 := by
  unfold upsert
  split
  · refine .informed (modifySource_places (fun _ => rfl) fun _ => rfl) ?_ rfl rfl
    show s.lastId ≤ s.lastId + 1
    omega
  · rename_i hnone
    refine .registered r fun x hx hloc => List.find?_eq_none.mp hnone x hx ?_
    exact beq_iff_eq.mpr hloc

theorem remove_change {id : Int} (h : s.remove id = .ok s') : s.Change s' := by
  unfold Store.remove at h
  split at h
  · cases h
  · rename_i hother
    split at h
    · cases h
      exact .removed hother
    · cases h

theorem setEnabled_change {id : Int} {enabled : Bool} (h : s.setEnabled id enabled = .ok s') :
    s.Change s' := by
  unfold setEnabled at h
  split at h
  · cases h
    exact modifySource_change (fun _ => rfl) fun _ => rfl
  · cases h

theorem insertItems_change {source generation : Int} {entries : List Entry}
    (hop : (Operation.insertItems source generation entries).fillsUser s = false)
    (h : s.insertItems source generation entries = .ok s') : s.Change s' := by
  have hchanges : ChangesOnly (·.source == source) s s' := by
    have hnew : (entries.map (Item.ofEntry source generation)).filter (!·.source == source) = [] :=
      List.filter_eq_nil_iff.mpr fun i hi => by
        obtain ⟨e, -, rfl⟩ := List.mem_map.mp hi
        simp [Item.ofEntry]
    rw [s.insertItems_eq h]
    refine ⟨rfl, ?_⟩
    rw [List.filter_append, hnew, List.append_nil]
  unfold insertItems at h
  split at h
  · cases h
    exact .informed rfl (Int.le_refl _) rfl rfl
  · rename_i hsome
    split at h
    · rename_i howner
      have hother : source ≠ Source.userId := by
        rw [Operation.fillsUser, Bool.eq_false_iff.mpr hsome] at hop
        simpa using hop
      exact .filled hchanges hother fun _ _ _ => howner
    · cases h

/-- Copies belong to a source that has items already; without any the old items go. -/
theorem carryForward_change {source old new : Int}
    (hop : (Operation.carryForward source old new).fillsUser s = false)
    (howned : ∀ i ∈ s.items, s.knows i.source = true) :
    s.Change (s.carryForward source old new).2 := by
  by_cases hother : source = Source.userId
  · unfold carryForward
    split
    · exact .informed rfl (Int.le_refl _) rfl rfl
    · rename_i hmoved
      have hnone : s.itemsOf source old = [] := by
        simpa [Operation.fillsUser, hother, hmoved] using hop
      rw [hnone]
      exact .thinned ((List.append_nil (s.items.filter _)).symm ▸ List.filter_sublist.map _)
  · refine .filled (carryForward_changes s source old new).ofSource hother fun i hi hid => ?_
    rw [← hid]
    unfold carryForward at hi
    split at hi
    · exact howned i hi
    · rcases List.mem_append.mp hi with hkept | hcopy
      · exact howned i (List.mem_of_mem_filter hkept)
      · obtain ⟨j, hj, rfl⟩ := List.mem_map.mp hcopy
        exact howned j (List.mem_of_mem_filter hj)

theorem commit_change (s : Store) (target : Int) (learned : List (Int × Metadata)) :
    s.Change (s.commit target learned) := by
  have hplaces := foldl_updateMetadata_places learned { s with active := target }
  refine .informed hplaces ?_ ?_ ?_ <;> rw [commit_eq]

theorem addUser_change {e : Entry} (h : s.addUser e = .ok s') : s.Change s' := by
  unfold addUser at h
  split at h
  · rename_i howner
    cases h
    exact .entered e howner
  · cases h

end

/-- An operation that is carried out is one of the changes. -/
theorem Consistent.change {s s' : Store} (h : s.Consistent) {op : Operation} {answer : Answer}
    (hop : op.fillsUser s = false) (happly : op.apply s = .ok (answer, s')) : s.Change s' := by
  cases op with
  | add r =>
    obtain ⟨⟨id, after⟩, hadd, heq⟩ := of_map_ok happly
    cases heq
    exact add_change hadd
  | upsert r => cases happly; exact upsert_change s r
  | remove id =>
    obtain ⟨after, hafter, heq⟩ := of_map_ok happly
    cases heq
    exact remove_change hafter
  | setEnabled id enabled =>
    obtain ⟨after, hafter, heq⟩ := of_map_ok happly
    cases heq
    exact setEnabled_change hafter
  | clearCache id => cases happly; exact modifySource_change (fun _ => rfl) fun _ => rfl
  | setRemoteModified id at? => cases happly; exact modifySource_change (fun _ => rfl) fun _ => rfl
  | updateMetadata id learned => cases happly; exact modifySource_change (fun _ => rfl) fun _ => rfl
  | insertItems source generation entries =>
    obtain ⟨after, hafter, heq⟩ := of_map_ok happly
    cases heq
    exact insertItems_change hop hafter
  | clearItems source generation => cases happly; exact filter_change _
  | carryForward source old new =>
    cases happly
    exact carryForward_change hop h.owned
  | promote source staged new => cases happly; exact promote_change source staged new
  | commit target learned => cases happly; exact commit_change s target learned
  | purge => cases happly; exact filter_change _
  | discard => cases happly; exact filter_change _
  | addUser e =>
    obtain ⟨after, hafter, heq⟩ := of_map_ok happly
    cases heq
    exact addUser_change hafter
  | removeUser host => cases happly; exact filter_change _
  | sync =>
    obtain ⟨⟨summary, after⟩, hafter, heq⟩ := of_map_ok happly
    cases heq
    obtain ⟨hmade, -, rfl⟩ := sync_ok hafter
    rw [synced_made hmade]
    exact .tabulated

/-! ### Changes keep a store consistent -/

section

variable {s s' : Store}

theorem knows_iff_places {id : Int} : s.knows id = true ↔ id ∈ s.places.map Prod.fst := by
  rw [knows_iff, places_ids]

/-- The hosts of a source's items are told by whose the items are. -/
theorem owned_hosts (source : Int) :
    (s.owned source).map (·.host) =
      ((s.items.map Item.holding).filter (·.1 == source)).map Prod.snd := by
  rw [List.filter_map, List.map_map]
  rfl

/-- Ids and locations are keys wherever the places are the same. -/
theorem Distinct.of_places (h : s.Distinct) (hplaces : s'.places = s.places)
    (hgiven : s.lastId ≤ s'.lastId) : s'.Distinct := by
  refine ⟨h.numbered.of_ids ?_ hgiven, ?_⟩
  · rw [← places_ids, hplaces, places_ids]
  · rw [← places_locations, hplaces, places_locations]
    exact h.places

namespace Consistent

variable (h : s.Consistent)

include h

theorem informed (hplaces : s'.places = s.places) (hgiven : s.lastId ≤ s'.lastId)
    (hitems : s'.items = s.items) (htable : s'.table = s.table) : s'.Consistent where
  distinct := h.distinct.of_places hplaces hgiven
  user := hplaces ▸ h.user
  owned := by
    intro i hi
    rw [knows_iff_places, hplaces, ← knows_iff_places]
    exact h.owned i (hitems ▸ hi)
  once := by
    rw [Store.owned, hitems]
    exact h.once
  rows := htable ▸ h.rows

theorem registered (r : Registration) (hunused : ∀ x ∈ s.sources, x.location ≠ placeOf r) :
    Store.Consistent { s with
      sources := s.sources ++ [newSource (s.lastId + 1) r]
      lastId := s.lastId + 1 } where
  distinct := by
    refine ⟨h.distinct.numbered.register r, ?_⟩
    rw [List.map_append]
    refine h.distinct.places.append (List.nodup_singleton _) fun place hold hnew => ?_
    obtain ⟨x, hx, rfl⟩ := List.mem_map.mp hold
    exact hunused x hx (List.mem_singleton.mp hnew)
  user := by
    rw [places, List.map_append]
    exact List.mem_append_left _ h.user
  owned := by
    intro i hi
    rw [knows, List.any_append, Bool.or_eq_true]
    exact .inl (h.owned i hi)
  once := h.once
  rows := h.rows

theorem removed {id : Int} (hother : id ≠ Source.userId) :
    Store.Consistent { s with
      sources := s.sources.filter (·.id != id)
      items := s.items.filter (·.source != id) } where
  distinct := by
    refine ⟨⟨?_, ?_⟩, ?_⟩
    · exact h.distinct.numbered.keyed.sublist (List.filter_sublist.map _)
    · exact fun x hx => h.distinct.numbered.given x (List.mem_of_mem_filter hx)
    · exact h.distinct.places.sublist (List.filter_sublist.map _)
  user := by
    obtain ⟨x, hx, hplace⟩ := List.mem_map.mp h.user
    refine List.mem_map.mpr ⟨x, List.mem_filter.mpr ⟨hx, ?_⟩, hplace⟩
    rw [(Prod.mk.inj hplace).1]
    simpa using hother.symm
  owned := by
    intro i hi
    obtain ⟨hstored, hne⟩ := List.mem_filter.mp hi
    obtain ⟨x, hx, hid⟩ := List.any_eq_true.mp (h.owned i hstored)
    refine List.any_eq_true.mpr ⟨x, List.mem_filter.mpr ⟨hx, ?_⟩, hid⟩
    rw [beq_iff_eq.mp hid]
    exact hne
  once := by
    rw [owned_hosts]
    refine List.Nodup.sublist ?_ (owned_hosts Source.userId ▸ h.once)
    exact ((List.filter_sublist.map Item.holding).filter _).map _
  rows := h.rows

theorem thinned {items : List Item}
    (hfewer : (items.map Item.holding).Sublist (s.items.map Item.holding)) :
    Store.Consistent { s with items } where
  distinct := h.distinct.of_places rfl (Int.le_refl _)
  user := h.user
  owned := by
    intro i hi
    obtain ⟨j, hj, hsame⟩ := List.mem_map.mp (hfewer.subset (List.mem_map_of_mem hi))
    exact (Prod.mk.inj hsame).1 ▸ h.owned j hj
  once := by
    rw [owned_hosts]
    exact List.Nodup.sublist ((hfewer.filter _).map _) (owned_hosts Source.userId ▸ h.once)
  rows := h.rows

theorem filled {id : Int} (hchanges : ChangesOnly (·.source == id) s s')
    (hother : id ≠ Source.userId) (howner : ∀ i ∈ s'.items, i.source = id → s.knows id = true) :
    s'.Consistent where
  distinct := by
    rw [hchanges.same]
    exact h.distinct.of_places rfl (Int.le_refl _)
  user := by
    rw [places, hchanges.sources]
    exact h.user
  owned := by
    intro i hi
    rw [hchanges.knows]
    by_cases hid : i.source = id
    · exact hid ▸ howner i hi hid
    · exact h.owned i (hchanges.mem hi (by simpa using hid))
  once := by
    rw [hchanges.owned_of_ne hother.symm]
    exact h.once
  rows := by
    rw [hchanges.table]
    exact h.rows

theorem entered (e : Entry) (howner : s.knows Source.userId = true) :
    Store.Consistent { s with items := s.items.filter (!isUserItemFor e.host ·) ++
      [Item.ofEntry Source.userId userGeneration e] } where
  distinct := h.distinct.of_places rfl (Int.le_refl _)
  user := h.user
  owned := by
    intro i hi
    rcases List.mem_append.mp hi with hkept | hnew
    · exact h.owned i (List.mem_of_mem_filter hkept)
    · rw [List.mem_singleton.mp hnew]
      exact howner
  once := by
    have hnew : [Item.ofEntry Source.userId userGeneration e].filter (·.source == Source.userId) =
        [Item.ofEntry Source.userId userGeneration e] := rfl
    rw [Store.owned, List.filter_append, List.map_append, hnew]
    refine List.Nodup.append ?_ (List.nodup_singleton _) fun host hold hentered => ?_
    · exact h.once.sublist ((List.filter_sublist.filter _).map _)
    · obtain ⟨i, hi, rfl⟩ := List.mem_map.mp hold
      obtain ⟨hkept, huser⟩ := List.mem_filter.mp hi
      have hfor := (List.mem_filter.mp hkept).2
      rw [isUserItemFor, huser, List.mem_singleton.mp hentered] at hfor
      simp [Item.ofEntry] at hfor
  rows := h.rows

theorem tabulated : Store.Consistent { s with table := s.rebuild.2 } where
  distinct := h.distinct.of_places rfl (Int.le_refl _)
  user := h.user
  owned := h.owned
  once := h.once
  rows := List.pairwise_map.mpr (s.rebuild_tabulates.ordered.imp fun hlt => ne_of_lt hlt)

end Consistent

end

/-- Each of the changes keeps a store consistent. -/
theorem Change.consistent {s s' : Store} (hc : s.Change s') (h : s.Consistent) :
    s'.Consistent := by
  cases hc with
  | informed hplaces hgiven hitems htable => exact h.informed hplaces hgiven hitems htable
  | registered r hunused => exact h.registered r hunused
  | removed hother => exact h.removed hother
  | thinned hfewer => exact h.thinned hfewer
  | filled hchanges hother howner => exact h.filled hchanges hother howner
  | entered e howner => exact h.entered e howner
  | tabulated => exact h.tabulated

/-- A place that was not there has an id that was not given out. -/
theorem Change.places {s s' : Store} (hc : s.Change s') :
    s.lastId ≤ s'.lastId ∧ ∀ place ∈ s'.places, place ∈ s.places ∨ s.lastId < place.1 := by
  cases hc with
  | informed hplaces hgiven => exact ⟨hgiven, fun place hplace => .inl (hplaces ▸ hplace)⟩
  | registered r =>
    refine ⟨show s.lastId ≤ s.lastId + 1 by omega, fun place hplace => ?_⟩
    rw [Store.places, List.map_append] at hplace
    refine (List.mem_append.mp hplace).imp_right fun hnew => ?_
    rw [List.mem_singleton.mp hnew]
    exact Int.lt_succ s.lastId
  | removed =>
    exact ⟨Int.le_refl _, fun place hplace => .inl ((List.filter_sublist.map _).subset hplace)⟩
  | filled hchanges =>
    refine ⟨Int.le_of_eq hchanges.lastId.symm, fun place hplace => .inl ?_⟩
    rw [Store.places, hchanges.sources] at hplace
    exact hplace
  | thinned => exact ⟨Int.le_refl _, fun _ hplace => .inl hplace⟩
  | entered => exact ⟨Int.le_refl _, fun _ hplace => .inl hplace⟩
  | tabulated => exact ⟨Int.le_refl _, fun _ hplace => .inl hplace⟩

/-! ### Histories -/

namespace Operation

/-- The store after an operation, carried out or refused. -/
def after (s : Store) (op : Operation) : Store := (Session.on op.carryOut s).2

/-- The store after one operation after the other. -/
def afterAll (s : Store) (ops : List Operation) : Store := ops.foldl after s

/-- The places that were not there before, operation by operation. -/
def registered (s : Store) : List Operation → List (Int × String)
  | [] => []
  | op :: ops =>
    (op.after s).places.filter (· ∉ s.places) ++ registered (op.after s) ops

/-- Whether one operation after the other leaves it to `addUser` to put items in for the user. -/
def sparesUser (s : Store) : List Operation → Bool
  | [] => true
  | op :: ops => !op.fillsUser s && sparesUser (op.after s) ops

variable {s : Store} {op : Operation} {ops : List Operation}

theorem sparesUser_cons (h : sparesUser s (op :: ops) = true) :
    op.fillsUser s = false ∧ sparesUser (op.after s) ops = true := by
  simpa [sparesUser] using h

/-- An operation that is refused leaves the store as it was. -/
theorem after_of_error {e : Error} (h : (Session.on op.carryOut s).1 = .error e) :
    op.after s = s := by
  rw [after, carryOut_on]
  rw [carryOut_on] at h
  cases hr : op.apply s with
  | ok result =>
    rw [hr] at h
    cases h
  | error e => rfl

theorem after_change (hs : s.Consistent) (hop : op.fillsUser s = false) :
    op.after s = s ∨ s.Change (op.after s) := by
  rw [after, carryOut_on]
  cases hr : op.apply s with
  | ok result => exact .inr (hs.change hop hr)
  | error e => exact .inl rfl

theorem after_consistent (hs : s.Consistent) (hop : op.fillsUser s = false) :
    (op.after s).Consistent := by
  rcases after_change hs hop with hsame | hchange
  · rw [hsame]
    exact hs
  · exact hchange.consistent hs

theorem after_places (hs : s.Consistent) (hop : op.fillsUser s = false) :
    s.lastId ≤ (op.after s).lastId ∧
      ∀ place ∈ (op.after s).places, place ∈ s.places ∨ s.lastId < place.1 := by
  rcases after_change hs hop with hsame | hchange
  · rw [hsame]
    exact ⟨Int.le_refl _, fun _ hplace => .inl hplace⟩
  · exact hchange.places

theorem afterAll_consistent (hs : s.Consistent) (hops : sparesUser s ops = true) :
    (afterAll s ops).Consistent := by
  induction ops generalizing s with
  | nil => exact hs
  | cons op ops ih =>
    obtain ⟨hop, hops⟩ := sparesUser_cons hops
    exact ih (after_consistent hs hop) hops

/-- The sources that are there were there at first or were registered since. -/
theorem places_subset_registered (s : Store) (ops : List Operation) :
    (afterAll s ops).places ⊆ s.places ++ registered s ops := by
  induction ops generalizing s with
  | nil => exact List.subset_append_left ..
  | cons op ops ih =>
    intro place hplace
    rw [registered, ← List.append_assoc]
    refine (List.mem_append.mp (ih (op.after s) hplace)).elim (fun hafter => ?_)
      (List.mem_append_right _)
    refine List.mem_append_left _ (List.mem_append.mpr ?_)
    by_cases hold : place ∈ s.places
    · exact .inl hold
    · exact .inr (List.mem_filter.mpr ⟨hafter, decide_eq_true hold⟩)

/-- Ids are given out in ascending order, operation by operation. -/
theorem registered_ids (hs : s.Consistent) (hops : sparesUser s ops = true) :
    (∀ place ∈ registered s ops, s.lastId < place.1) ∧
      ((registered s ops).map Prod.fst).Nodup := by
  induction ops generalizing s with
  | nil => exact ⟨fun place hplace => absurd hplace List.not_mem_nil, List.nodup_nil⟩
  | cons op ops ih =>
    obtain ⟨hop, hops⟩ := sparesUser_cons hops
    have hs' := after_consistent hs hop
    obtain ⟨hgiven, hplaces⟩ := after_places hs hop
    obtain ⟨hlater, hnodup⟩ := ih hs' hops
    have hnew : ∀ place ∈ (op.after s).places.filter (· ∉ s.places),
        s.lastId < place.1 ∧ place.1 ≤ (op.after s).lastId := by
      intro place hplace
      obtain ⟨hthere, hnot⟩ := List.mem_filter.mp hplace
      refine ⟨(hplaces place hthere).resolve_left (of_decide_eq_true hnot), ?_⟩
      obtain ⟨x, hx, rfl⟩ := List.mem_map.mp hthere
      exact hs'.distinct.numbered.given x hx
    constructor
    · intro place hplace
      rcases List.mem_append.mp hplace with h | h
      · exact (hnew place h).1
      · exact lt_of_le_of_lt hgiven (hlater place h)
    · rw [registered, List.map_append]
      refine List.Nodup.append ?_ hnodup fun id hnow hthen => ?_
      · have hids : ((op.after s).places.map Prod.fst).Nodup := by
          rw [places_ids]
          exact hs'.distinct.numbered.keyed
        exact hids.sublist (List.filter_sublist.map _)
      · obtain ⟨place, hplace, rfl⟩ := List.mem_map.mp hnow
        obtain ⟨other, hother, hid⟩ := List.mem_map.mp hthen
        have hle := (hnew place hplace).2
        have hlt := hlater other hother
        omega

end Operation

theorem empty_consistent : empty.Consistent := by
  refine ⟨⟨empty_numbered, ?_⟩, ?_, ?_, ?_, ?_⟩ <;> decide

open Operation in
/-- **What holds of a store whatever was asked of it since it was new**: it is consistent, no id
was given out twice, the sources that are there are the ones that the ids were given to, and
what it refuses leaves no trace. -/
theorem afterAll_empty (ops : List Operation) (hops : sparesUser empty ops = true) :
    (afterAll empty ops).Consistent ∧
      ((empty.places ++ registered empty ops).map Prod.fst).Nodup ∧
      (afterAll empty ops).places ⊆ empty.places ++ registered empty ops ∧
      ∀ (op : Operation) (e : Error),
        (Session.on op.carryOut (afterAll empty ops)).1 = .error e →
        op.after (afterAll empty ops) = afterAll empty ops := by
  obtain ⟨hbeyond, hnodup⟩ := registered_ids empty_consistent hops
  refine ⟨afterAll_consistent empty_consistent hops, ?_, places_subset_registered empty ops,
    fun op e => after_of_error⟩
  rw [List.map_append]
  refine List.Nodup.append (by decide) hnodup fun id hfirst hlater => ?_
  obtain ⟨place, hplace, rfl⟩ := List.mem_map.mp hlater
  have huser : place.1 = Source.userId := List.mem_singleton.mp hfirst
  have hlt : Source.userId < place.1 := hbeyond place hplace
  omega

/-- A history with operations of all kinds, some of them refused. -/
def Operation.eventful : List Operation :=
  let ads : Registration := { label := "Ads", location := "https://lists.test/ads" }
  [.add ads,
   .add { ads with label := "Ads again" },
   .upsert { ads with allowList := true },
   .setEnabled 2 true,
   .insertItems 2 1 [.blocked "ads.test", .blocked "ads.test"],
   .insertItems 7 1 [.blocked "lost.test"],
   .updateMetadata 2 { entityTag := some "v1" },
   .carryForward 2 1 2,
   .promote 2 2 1,
   .commit 1 [(2, { sizeHint := some 16 }), (7, {})],
   .addUser (.blocked "mine.test"),
   .addUser (.allowed "mine.test"),
   .promote Source.userId 0 3,
   .addUser (.blocked "mine.test"),
   .sync,
   .remove 2,
   .remove 2,
   .purge,
   .discard,
   .upsert ads,
   .removeUser "other.test",
   .clearItems Source.userId (some 5),
   .sync]

open Operation in
theorem afterAll_empty_eventful :
    (afterAll empty eventful).Consistent ∧
      registered empty eventful = [(2, "https://lists.test/ads"), (4, "https://lists.test/ads")] ∧
      (Operation.remove Source.userId).after (afterAll empty eventful) =
        afterAll empty eventful := by
  obtain ⟨hconsistent, -, -, hrefused⟩ := afterAll_empty eventful (by decide +kernel)
  exact ⟨hconsistent, by decide +kernel,
    hrefused (.remove Source.userId) (.permanentSource Source.userId) rfl⟩

end Store

end Sinkhole
