import Sinkhole.Proofs.Store.Items
import Sinkhole.Proofs.Store.Rebuild

/-! Stores that have the same in force.

Generations are numbers without meaning of their own: two stores may have the same items
in force under different ones, and the items of different sources may be mixed in
another way, or be there more than once. A rebuild sees none of this. Of all redirects
of a host it takes the first one of the source added last, and which one that is depends
on the order of that source's redirects alone, and on none where they all have one
target; so the rebuilt tables of such stores are the same (`Alike.rebuild_eq`), and
where one of them can not be made, neither can the other (`Alike.isRefused_eq`). -/
namespace Sinkhole.Store

variable (s : Store)

/-- What does not depend on the generation takes the same items in any. -/
theorem filter_within {p : Item → Bool} {generation : Int}
    (hp : ∀ i, p (i.within generation) = p i) (items : List Item) :
    (items.map (Item.within generation)).filter p =
      (items.filter p).map (Item.within generation) := by
  rw [List.filter_map]
  exact congrArg _ (List.filter_congr fun i _ => hp i)

/-! ### Source by source -/

def isOn (id : Int) : Bool := s.sources.any fun x => x.id == id && x.enabled

theorem isOn_congr {s s' : Store}
    (h : s'.sources.map (fun x => (x.id, x.enabled)) = s.sources.map fun x => (x.id, x.enabled)) :
    s'.isOn = s.isOn := by
  funext id
  have hany : ∀ s : Store, s.isOn id =
      (s.sources.map fun x => (x.id, x.enabled)).any fun x => x.1 == id && x.2 := by
    intro s
    rw [List.any_map]
    rfl
  rw [hany, hany, h]

/-- The items of a source that count. -/
def inForceOf (id : Int) : List Item := s.items.filter fun i => i.source == id && s.isActive i

theorem mem_inForceOf {id : Int} {i : Item} :
    i ∈ s.inForceOf id ↔ s.InForce i ∧ i.source = id := by
  simp only [inForceOf, List.mem_filter, inForce_iff, Bool.and_eq_true, beq_iff_eq]
  rw [and_assoc, and_comm (a := i.source = id)]

/-- Items of the user count in any generation. -/
theorem inForceOf_user : s.inForceOf Source.userId =
    (s.owned Source.userId).filter fun i => i.enabled && s.isOn Source.userId := by
  rw [inForceOf, owned, List.filter_filter]
  refine List.filter_congr fun i _ => ?_
  by_cases hid : i.source = Source.userId
  · simp [isActive, isOn, hid]
  · rw [beq_eq_false_iff_ne.mpr hid, Bool.false_and, Bool.and_false]

theorem inForceOf_of_ne {id : Int} (hid : id ≠ Source.userId) : s.inForceOf id =
    (s.itemsOf id s.active).filter fun i => i.enabled && s.isOn id := by
  rw [inForceOf, itemsOf, List.filter_filter]
  refine List.filter_congr fun i _ => ?_
  by_cases h : i.source = id
  · have huser : (i.source == Source.userId) = false := beq_eq_false_iff_ne.mpr (h ▸ hid)
    rw [isActive, huser, Bool.or_false, Item.isOf, ← h, beq_self_eq_true, Bool.true_and,
      Bool.true_and, Bool.and_assoc, Bool.and_assoc, Bool.and_comm (_ == _)]
    rfl
  · rw [Item.isOf, beq_eq_false_iff_ne.mpr h, Bool.false_and, Bool.false_and, Bool.and_false]

/-! ### The redirect that a rebuild takes -/

def redirectsHost (host : String) (i : Item) : Bool :=
  i.hasKind .redirected && (i.target.isSome && i.host == host)

/-- The chosen redirect is the first one of its source. -/
theorem chosen_head {i : Item} (h : i ∈ s.chosen) :
    ((s.inForceOf i.source).filter (redirectsHost i.host)).head? = some i := by
  have hallowed := s.isAllowedBy_eq_false i.host |>.mpr (s.chosen_due h).2
  have hhead := firstPerHost_head s.redirectItems_ordered (fun _ h => by cases h) i h
  obtain ⟨rest, heq⟩ := List.head?_eq_some_iff.mp hhead
  have hsource : ((s.redirectItems s.allowPatterns).filter
      fun j => j.source == i.source && j.host == i.host).head? = some i := by
    rw [← List.filter_filter, heq]
    simp
  -- two redirects of a host by one source may stand either way, so the sort left them in order
  rw [redirectItems, sortBy_filter, activeItems, List.filter_filter, List.filter_filter] at hsource
  · rw [← hsource, inForceOf, List.filter_filter]
    refine congrArg List.head? (List.filter_congr fun j _ => ?_)
    by_cases hh : j.host = i.host
    · rw [redirectsHost, hh, hallowed]
      simp only [beq_self_eq_true, Bool.not_false, Bool.and_true]
      ac_rfl
    · simp [redirectsHost, beq_eq_false_iff_ne.mpr hh]
  · simp only [Bool.and_eq_true, beq_iff_eq, redirectLe_iff]
    rintro a b ⟨hs, hh⟩ ⟨hs', hh'⟩
    exact .inr ⟨hh.trans hh'.symm, le_of_eq (hs'.trans hs.symm)⟩

/-! ### Items that say the same -/

/-- The redirects of a host among items, whatever their generations. -/
def redirectsOf (host : String) (items : List Item) : List Item :=
  (items.map (Item.within 0)).filter (redirectsHost host)

/-- The items send the host to one target at most. -/
def Sole (host : String) (items : List Item) : Prop :=
  ∃ target, ∀ i ∈ redirectsOf host items, i.target = target

/-- The entries redirect no host to two targets. -/
def Undivided (entries : List Entry) : Prop :=
  ∀ host target target', .redirected host target ∈ entries → .redirected host target' ∈ entries →
    target = target'

theorem undivided_iff {entries : List Entry} : Undivided entries ↔
    ∀ e ∈ entries, ∀ e' ∈ entries, e.kind = .redirected → e'.kind = .redirected →
      e.host = e'.host → e.target? = e'.target? := by
  refine ⟨fun h e he e' he' hkind hkind' hhost => ?_, fun h host target target' hmem hmem' => ?_⟩
  · cases e with
    | redirected host target =>
      cases e' with
      | redirected host' target' =>
        obtain rfl : host = host' := hhost
        exact congrArg some (h host target target' he he')
      | _ => cases hkind'
    | _ => cases hkind
  · exact Option.some.inj (h _ hmem _ hmem' rfl rfl rfl)

instance (entries : List Entry) : Decidable (Undivided entries) :=
  decidable_of_iff _ undivided_iff.symm

/-- The same items but for their generation, their order and for how often each is there; where
they redirect a host to several targets its redirects come in the same order and number. -/
structure SameItems (items items' : List Item) : Prop where
  members : ∀ i, i ∈ items'.map (Item.within 0) ↔ i ∈ items.map (Item.within 0)
  redirects : ∀ host, redirectsOf host items' = redirectsOf host items ∨ Sole host items

namespace SameItems

variable {items items' : List Item}

theorem of_eq (h : items'.map (Item.within 0) = items.map (Item.within 0)) :
    SameItems items items' :=
  ⟨fun i => by rw [h], fun host => .inl (congrArg (List.filter _) h)⟩

theorem mem_redirectsOf (h : SameItems items items') {host : String} {i : Item} :
    i ∈ redirectsOf host items' ↔ i ∈ redirectsOf host items := by
  rw [redirectsOf, redirectsOf, List.mem_filter, List.mem_filter, h.members]

theorem sole (h : SameItems items items') {host : String} (hs : Sole host items') :
    Sole host items := by
  obtain ⟨target, hall⟩ := hs
  exact ⟨target, fun i hi => hall i (h.mem_redirectsOf.mpr hi)⟩

theorem symm (h : SameItems items items') : SameItems items' items := by
  have hmembers : ∀ i, i ∈ items.map (Item.within 0) ↔ i ∈ items'.map (Item.within 0) :=
    fun i => (h.members i).symm
  refine ⟨hmembers, fun host => (h.redirects host).imp Eq.symm ?_⟩
  rintro ⟨target, hall⟩
  exact ⟨target, fun i hi => hall i (h.mem_redirectsOf.mp hi)⟩

theorem trans {items'' : List Item} (h : SameItems items items') (h' : SameItems items' items'') :
    SameItems items items'' := by
  refine ⟨fun i => (h'.members i).trans (h.members i), fun host => ?_⟩
  rcases h'.redirects host with heq' | hsole
  · exact (h.redirects host).imp_left heq'.trans
  · exact .inr (h.sole hsole)

/-- The items in another generation. -/
theorem within (items : List Item) (generation : Int) :
    SameItems items (items.map (Item.within generation)) :=
  .of_eq (by rw [List.map_map]; rfl)

/-- What entries redirect, in whatever generation they are stored. -/
theorem of_redirectsOf_ofEntry {entries : List Entry} {host : String} {id generation : Int}
    {i : Item} (hi : i ∈ redirectsOf host (entries.map (Item.ofEntry id generation))) :
    ∃ target, .redirected host target ∈ entries ∧ i.target = some target.text := by
  obtain ⟨hmem, hredirects⟩ := List.mem_filter.mp hi
  rw [List.map_map, List.mem_map] at hmem
  obtain ⟨e, he, rfl⟩ := hmem
  simp only [redirectsHost, Bool.and_eq_true, beq_iff_eq] at hredirects
  cases e with
  | blocked h => cases hredirects.1
  | allowed p => cases hredirects.1
  | redirected h target => exact ⟨target, hredirects.2.2 ▸ he, rfl⟩

/-- Undivided entries make the same items in any order, and however often each of them is there. -/
theorem of_entries {entries entries' : List Entry} {id generation generation' : Int}
    (hone : Undivided entries) (hmem : ∀ e, e ∈ entries' ↔ e ∈ entries) :
    SameItems (entries.map (Item.ofEntry id generation))
      (entries'.map (Item.ofEntry id generation')) := by
  refine ⟨fun i => ?_, fun host => .inr ?_⟩
  · rw [List.map_map, List.map_map, List.mem_map, List.mem_map]
    exact exists_congr fun e => and_congr_left fun _ => hmem e
  · by_cases hsome : ∃ target, .redirected host target ∈ entries
    · obtain ⟨target, htarget⟩ := hsome
      refine ⟨some target.text, fun i hi => ?_⟩
      obtain ⟨target', htarget', htext⟩ := of_redirectsOf_ofEntry hi
      rw [htext, hone host target' target htarget' htarget]
    · refine ⟨none, fun i hi => ?_⟩
      obtain ⟨target, htarget, -⟩ := of_redirectsOf_ofEntry hi
      exact absurd ⟨target, htarget⟩ hsome

/-- What is chosen without regard to the generation stays the same. -/
theorem filter (h : SameItems items items') {p : Item → Bool}
    (hp : ∀ i, p (i.within 0) = p i) : SameItems (items.filter p) (items'.filter p) := by
  have hfilter : ∀ host (items : List Item),
      redirectsOf host (items.filter p) = (redirectsOf host items).filter p := by
    intro host items
    rw [redirectsOf, redirectsOf, ← filter_within hp, List.filter_comm]
  refine ⟨fun i => ?_, fun host => ?_⟩
  · rw [← filter_within hp, ← filter_within hp, List.mem_filter, List.mem_filter, h.members]
  · rw [hfilter, hfilter]
    refine (h.redirects host).imp (congrArg (List.filter p)) ?_
    rintro ⟨target, hall⟩
    refine ⟨target, fun i hi => hall i ?_⟩
    rw [hfilter] at hi
    exact (List.mem_filter.mp hi).1

end SameItems

/-! ### Stores that are alike -/

/-- The same sources are on, and each holds the same. -/
structure Alike (s s' : Store) : Prop where
  sources : s'.sources.map (fun x => (x.id, x.enabled)) = s.sources.map fun x => (x.id, x.enabled)
  items : ∀ x ∈ s.sources, x.id ≠ Source.userId →
    SameItems (s.itemsOf x.id s.active) (s'.itemsOf x.id s'.active)
  user : s'.owned Source.userId = s.owned Source.userId

namespace Alike

variable {s s' : Store}

theorem mem_sources (h : Alike s s') {x : Source} (hx : x ∈ s'.sources) :
    ∃ y ∈ s.sources, y.id = x.id := by
  have hmem : (x.id, x.enabled) ∈ s'.sources.map fun x => (x.id, x.enabled) :=
    List.mem_map_of_mem hx
  rw [h.sources] at hmem
  obtain ⟨y, hy, heq⟩ := List.mem_map.mp hmem
  exact ⟨y, hy, congrArg Prod.fst heq⟩

theorem symm (h : Alike s s') : Alike s' s := by
  refine ⟨h.sources.symm, fun x hx hid => ?_, h.user.symm⟩
  obtain ⟨y, hy, heq⟩ := h.mem_sources hx
  rw [← heq] at hid ⊢
  exact (h.items y hy hid).symm

/-- The same of every source is in force. -/
theorem inForceOf (h : Alike s s') (id : Int) : SameItems (s.inForceOf id) (s'.inForceOf id) := by
  by_cases hid : id = Source.userId
  · rw [hid, inForceOf_user, inForceOf_user, isOn_congr h.sources, h.user]
    exact .of_eq rfl
  · rw [inForceOf_of_ne _ hid, inForceOf_of_ne _ hid, isOn_congr h.sources]
    cases hon : s.isOn id with
    | false => simpa using SameItems.of_eq rfl
    | true =>
      obtain ⟨x, hx, hxid⟩ := List.any_eq_true.mp hon
      obtain ⟨hxid, -⟩ := Bool.and_eq_true_iff.mp hxid
      obtain rfl := beq_iff_eq.mp hxid
      exact (h.items x hx hid).filter fun i => rfl

/-- An item in force in one is in force in the other, in some generation. -/
theorem inForce (h : Alike s s') {i : Item} (hi : s.InForce i) :
    ∃ g, s'.InForce (i.within g) := by
  have hmem : i.within 0 ∈ (s.inForceOf i.source).map (Item.within 0) :=
    List.mem_map_of_mem ((mem_inForceOf s).mpr ⟨hi, rfl⟩)
  rw [← (h.inForceOf i.source).members] at hmem
  obtain ⟨j, hj, heq⟩ := List.mem_map.mp hmem
  rw [Item.eq_within heq] at hj
  exact ⟨j.generation, ((mem_inForceOf s').mp hj).1⟩

theorem allows (h : Alike s s') {host : String} (ha : s.Allows host) : s'.Allows host := by
  obtain ⟨i, hi, hkind, hcovers⟩ := ha
  obtain ⟨g, hj⟩ := h.inForce hi
  exact ⟨i.within g, hj, hkind, hcovers⟩

theorem blocks (h : Alike s s') {host : String} (hb : s.Blocks host) : s'.Blocks host := by
  obtain ⟨i, hi, hkind, hhost⟩ := hb
  obtain ⟨g, hj⟩ := h.inForce hi
  exact ⟨i.within g, hj, hkind, hhost⟩

theorem redirectsTo (h : Alike s s') {host : String} {i : Item} (hr : s.Redirects host i) :
    ∃ g, s'.Redirects host (i.within g) := by
  obtain ⟨g, hj⟩ := h.inForce hr.inForce
  exact ⟨g, hj, hr.isRedirect, hr.hasTarget, hr.forHost⟩

/-- The user's items are the same. -/
theorem mem_user (h : Alike s s') {i : Item} (hi : i ∈ s.items)
    (huser : i.source = Source.userId) : i ∈ s'.items := by
  have hmem : i ∈ s.owned Source.userId := List.mem_filter.mpr ⟨hi, beq_iff_eq.mpr huser⟩
  rw [← h.user] at hmem
  exact (List.mem_filter.mp hmem).1

/-! ### The table -/

/-- The chosen redirect is the first of its host that its source has in force. -/
theorem head_redirectsOf {i : Item} (hi : i ∈ s.chosen) :
    (redirectsOf i.host (s.inForceOf i.source)).head? = some (i.within 0) := by
  rw [redirectsOf, filter_within fun _ => rfl, List.head?_map, s.chosen_head hi]
  rfl

/-- For each host the two choose redirects to the same target. -/
theorem chosen (h : Alike s s') {i : Item} (hi : i ∈ s.chosen) :
    ∃ j ∈ s'.chosen, redirectRow j = redirectRow i := by
  obtain ⟨hlast, hna⟩ := s.chosen_due hi
  obtain ⟨g, hr⟩ := h.redirectsTo hlast.toRedirects
  obtain ⟨j, hj, hhost⟩ := s'.chosen_complete hr fun ha => hna (h.symm.allows ha)
  have hjlast := (s'.chosen_due hj).1
  rw [hhost] at hjlast
  have hsource : j.source = i.source := by
    obtain ⟨g', hr'⟩ := h.symm.redirectsTo hjlast.toRedirects
    have hle : j.source ≤ i.source := hlast.last (j.within g') hr'
    have hge : i.source ≤ j.source := hjlast.last (i.within g) hr
    omega
  have hfirst := head_redirectsOf hi
  have hjfirst := head_redirectsOf hj
  rw [hhost, hsource] at hjfirst
  refine ⟨j, hj, ?_⟩
  have htarget : j.target = i.target := by
    rcases (h.inForceOf i.source).redirects i.host with heq | ⟨target, hall⟩
    · rw [heq, hfirst] at hjfirst
      have heq : i.within 0 = j.within 0 := Option.some.inj hjfirst
      exact (congrArg Item.target heq).symm
    · have hmem := List.mem_of_mem_head? hfirst
      have hjmem := (h.inForceOf i.source).mem_redirectsOf.mp (List.mem_of_mem_head? hjfirst)
      exact (hall _ hjmem).trans (hall _ hmem).symm
  rw [redirectRow, redirectRow, hhost, htarget]

theorem rebuild_subset (h : Alike s s') {row : HostRow} (hrow : row ∈ s.rebuild.2) :
    row ∈ s'.rebuild.2 := by
  rw [mem_rebuild] at hrow ⊢
  rcases hrow with ⟨i, hi, rfl⟩ | ⟨hcarved, hnone⟩
  · exact .inl (h.chosen hi)
  · obtain ⟨host, hb, hna, rfl⟩ := (mem_carved s).mp hcarved
    refine .inr ⟨(mem_carved s').mpr
      ⟨host, h.blocks hb, fun ha => hna (h.symm.allows ha), rfl⟩, fun j hj hhost => ?_⟩
    obtain ⟨i, hi, heq⟩ := h.symm.chosen hj
    exact hnone i hi ((congrArg HostRow.host heq).trans hhost)

/-- **Stores that are alike come to the same table.** -/
theorem rebuild_eq (h : Alike s s') : s'.rebuild.2 = s.rebuild.2 :=
  eq_of_ordered s'.rebuild_tabulates.ordered s.rebuild_tabulates.ordered fun _ =>
    ⟨h.symm.rebuild_subset, h.rebuild_subset⟩

/-! ### Whether it can be made -/

theorem knows (h : Alike s s') (id : Int) : s'.knows id = s.knows id := by
  have hids : ∀ s : Store, s.knows id =
      (s.sources.map fun x => (x.id, x.enabled)).any fun x => x.1 == id := by
    intro s
    rw [List.any_map]
    rfl
  rw [hids, hids, h.sources]

/-- An item that the patterns are tried on in one is one of those in the other, in some
generation. -/
theorem isTried (h : Alike s s') {i : Item} (hi : i ∈ s.items) (ht : s.isTried i = true) :
    ∃ g, i.within g ∈ s'.items ∧ s'.isTried (i.within g) = true := by
  simp only [Store.isTried, Bool.and_eq_true, Bool.or_eq_true, beq_iff_eq] at ht ⊢
  obtain ⟨⟨hredirects, hgeneration⟩, hknown⟩ := ht
  have hknown' : s'.knows i.source = true := (h.knows _).trans hknown
  rcases hgeneration with hactive | huser
  · by_cases huser : i.source = Source.userId
    · exact ⟨i.generation, h.mem_user hi huser, ⟨hredirects, .inr huser⟩, hknown'⟩
    · obtain ⟨x, hx, hxid⟩ := List.any_eq_true.mp hknown
      have hxid : x.id = i.source := beq_iff_eq.mp hxid
      have hmem : i ∈ s.itemsOf x.id s.active :=
        List.mem_filter.mpr ⟨hi, Item.isOf_iff.mpr ⟨hxid.symm, hactive⟩⟩
      have hwithin := ((h.items x hx (hxid ▸ huser)).members _).mpr (List.mem_map_of_mem hmem)
      obtain ⟨j, hj, heq⟩ := List.mem_map.mp hwithin
      rw [Item.eq_within heq] at hj
      obtain ⟨hj, hof⟩ := List.mem_filter.mp hj
      exact ⟨_, hj, ⟨hredirects, .inl (Item.isOf_iff.mp hof).2⟩, hknown'⟩
  · exact ⟨i.generation, h.mem_user hi huser, ⟨hredirects, .inr huser⟩, hknown'⟩

theorem tried (h : Alike s s') {host : String} (ht : s.Tried host) : s'.Tried host := by
  refine ht.imp h.blocks ?_
  rintro ⟨i, hi, hi', hhost⟩
  obtain ⟨g, hj, hj'⟩ := h.isTried hi hi'
  exact ⟨i.within g, hj, hj', hhost⟩

theorem stuck (h : Alike s s') {host : String} (hs : s.Stuck host) : s'.Stuck host := by
  obtain ⟨i, hi, hkind, hlong, hnone⟩ := hs.pattern
  obtain ⟨g, hi'⟩ := h.inForce hi
  refine ⟨h.tried hs.tried, i.within g, hi', hkind, hlong, fun j hj hjkind hlt => ?_⟩
  obtain ⟨g', hj'⟩ := h.symm.inForce hj
  exact hnone (j.within g') hj' hjkind hlt

/-- **Of stores that are alike both tables can be made or neither.** -/
theorem isRefused_eq (h : Alike s s') : s'.isRefused = s.isRefused := by
  rw [Bool.eq_iff_iff, isRefused_iff, isRefused_iff]
  exact ⟨fun ⟨host, hs⟩ => ⟨host, h.symm.stuck hs⟩, fun ⟨host, hs⟩ => ⟨host, h.stuck hs⟩⟩

end Alike

end Sinkhole.Store
