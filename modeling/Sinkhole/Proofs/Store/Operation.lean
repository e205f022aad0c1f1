import Sinkhole.Store.Operation
import Sinkhole.Proofs.Store.Items
import Sinkhole.Proofs.Store.Rebuild

/-! Operations in one go.

Each operation of the store comes to one step from a store to a store, and that step is
either refused or taken (`carryOut_on`). So an operation that is refused leaves no trace,
although some of its statements may have been carried out before the one that was not. -/
namespace Sinkhole.Store

/-- Taking some out, there are as many fewer. -/
theorem length_sub_filter {α : Type} (p : α → Bool) (xs : List α) :
    xs.length - (xs.filter (!p ·)).length = (xs.filter p).length := by
  have hall := List.length_eq_length_filter_add (l := xs) p
  have hnot : (xs.filter (!p ·)) = xs.filter fun a => !p a := rfl
  omega

section

variable {s : Store} {id : Int}

theorem sourcesWith_eq_nil : s.sources.filter (·.id == id) = [] ↔ s.knows id = false := by
  rw [List.filter_eq_nil_iff, knows, List.any_eq_false]

/-- The sources with an id that there is no source with. -/
theorem length_sourcesWith_eq_zero :
    (s.sources.filter (·.id == id)).length = 0 ↔ s.knows id = false := by
  rw [List.length_eq_zero_iff, sourcesWith_eq_nil]

theorem sourcesWithout_eq_self (h : s.knows id = false) :
    s.sources.filter (·.id != id) = s.sources := by
  refine List.filter_eq_self.mpr fun x hx => ?_
  have hne := List.any_eq_false.mp h x hx
  simpa using hne

/-- The items that belong to a source with a known id are the ones that name it. -/
theorem any_sourcesWith (h : s.knows id = true) (other : Int) :
    (s.sources.filter (·.id == id)).any (·.id == other) = (other == id) := by
  obtain ⟨x, hx, hid⟩ := List.any_eq_true.mp h
  rw [Bool.eq_iff_iff, List.any_eq_true, beq_iff_eq]
  constructor
  · rintro ⟨y, hy, hother⟩
    exact (beq_iff_eq.mp hother).symm.trans (beq_iff_eq.mp (List.mem_filter.mp hy).2)
  · rintro rfl
    exact ⟨x, List.mem_filter.mpr ⟨hx, hid⟩, hid⟩

theorem modifySource_unknown (h : s.knows id = false) (f : Source → Source) :
    s.modifySource id f = s := by
  have hsame : (s.modifySource id f).sources = s.sources := by
    refine (List.map_congr_left fun x hx => if_neg ?_).trans (List.map_id _)
    exact List.any_eq_false.mp h x hx
  exact congrArg (fun sources => ({ s with sources } : Store)) hsame

end

namespace Session

variable {α β : Type}

/-! ### Statements one after the other -/

@[simp]
theorem on_pure (a : α) (s : Store) : on (pure a) s = (.ok a, s) := rfl

theorem on_bind (work : Session α) (next : α → Session β) (s : Store) :
    on (work >>= next) s = match on work s with
      | (.ok a, s') => on (next a) s'
      | (.error e, s') => (.error e, s') := by
  unfold on
  simp only [ExceptT.run_bind, StateT.run_bind]
  cases StateT.run work.run s with
  | mk r s' => cases r <;> rfl

theorem on_bind_of_ok {work : Session α} {next : α → Session β} {s s' : Store} {a : α}
    (h : on work s = (.ok a, s')) : on (work >>= next) s = on (next a) s' := by
  rw [on_bind, h]

@[simp]
theorem on_get_bind (next : Store → Session α) (s : Store) :
    on (get >>= next) s = on (next s) s := rfl

@[simp]
theorem on_write_bind (f : Store → Store) (next : Unit → Session α) (s : Store) :
    on (write f >>= next) s = on (next ()) (f s) := rfl

theorem on_attempt (f : Store → Except Error (α × Store)) (s : Store) :
    on (attempt f) s = match f s with
      | .ok (a, s') => (.ok a, s')
      | .error e => (.error e, s) := by
  rw [attempt, on_get_bind]
  cases f s with
  | ok result => rfl
  | error e => rfl

theorem on_tryCatch (work : Session α) (handler : Error → Session α) (s : Store) :
    on (tryCatch work handler) s = match on work s with
      | (.ok a, s') => (.ok a, s')
      | (.error e, s') => on (handler e) s' := by
  unfold on
  simp only [tryCatch, tryCatchThe, MonadExceptOf.tryCatch, ExceptT.tryCatch, ExceptT.run_mk,
    StateT.run_bind]
  cases h : StateT.run (ExceptT.run work) s with
  | mk r s' =>
    have hrun : StateT.run work s = (r, s') := h
    rw [hrun]
    cases r <;> rfl

/-- **A transaction that fails leaves all as it was.** -/
theorem on_together (work : Session α) (s : Store) :
    on (together work) s = match on work s with
      | (.ok a, s') => (.ok a, s')
      | (.error e, _) => (.error e, s) := by
  rw [together, on_get_bind, on_tryCatch]
  cases on work s with
  | mk r s' => cases r <;> rfl

/-- Writes one after the other. -/
theorem on_forM_write (f : α → Store → Store) (xs : List α) (s : Store) :
    on (xs.forM fun a => write (f a)) s = (.ok (), xs.foldl (fun s a => f a s) s) := by
  induction xs generalizing s with
  | nil => rfl
  | cons a xs ih => exact ih (f a s)

@[simp]
theorem on_deleteItems (p : Item → Bool) (s : Store) :
    on (deleteItems p) s =
      (.ok (s.items.filter p).length, { s with items := s.items.filter (!p ·) }) := rfl

@[simp]
theorem on_deleteSource (id : Int) (s : Store) :
    on (deleteSource id) s = (.ok (s.sources.filter (·.id == id)).length, { s with
      sources := s.sources.filter (·.id != id)
      items := s.items.filter fun i =>
        !(s.sources.filter (·.id == id)).any (·.id == i.source) }) := rfl

@[simp]
theorem on_updateSource (id : Int) (f : Source → Source) (s : Store) :
    on (updateSource id f) s =
      (.ok (s.sources.filter (·.id == id)).length, s.modifySource id f) := rfl

@[simp]
theorem on_copyItems (source old new : Int) (s : Store) :
    on (copyItems source old new) s =
      (.ok ((s.itemsOf source old).map (Item.within new)).length,
        { s with items := s.items ++ (s.itemsOf source old).map (Item.within new) }) := rfl

theorem on_ensure (changed : Nat) (e : Error) (s : Store) :
    on (ensure changed e) s = if changed = 0 then (.error e, s) else (.ok (), s) := by
  rw [ensure]
  split <;> rfl

theorem on_insertItem (i : Item) (s : Store) :
    on (insertItem i) s =
      if s.knows i.source then (.ok (), { s with items := s.items ++ [i] })
      else (.error (.storage .unknownOwner), s) := by
  rw [insertItem, on_attempt, putItem]
  cases s.knows i.source <;> rfl

/-- Items that are not kept are the ones that are taken out. -/
theorem on_deleteItems_keep {p : Item → Bool} (keep : Item → Bool) {s : Store}
    (h : ∀ i, (!p i) = (i.source == Source.userId || keep i)) :
    on (deleteItems p) s = (.ok (s.keepItems keep).1, (s.keepItems keep).2) := by
  have hkept : s.items.filter (fun i => i.source == Source.userId || keep i) =
      s.items.filter (!p ·) := List.filter_congr fun i _ => (h i).symm
  rw [on_deleteItems, keepItems, hkept, length_sub_filter]

theorem foldl_putRow (rows : List HostRow) (s : Store) :
    rows.foldl (fun s row => s.putRow row) s =
      { s with table := rows.foldl (fun table row => insertRow row table) s.table } := by
  induction rows generalizing s with
  | nil => rfl
  | cons row rows ih => exact ih (s.putRow row)

/-- What is not matched is found unless one of the patterns that are tried is too long. -/
theorem unmatched_eq (patterns : List (List Char)) (host : α → String) (xs : List α) :
    unmatched patterns host xs =
      if xs.any fun x => (tryPatterns patterns (host x)).isNone then none
      else some (xs.filter fun x => !isAllowedBy patterns (host x)) := by
  induction xs with
  | nil => rfl
  | cons x xs ih =>
    rw [unmatched, ih, List.any_cons]
    cases ht : tryPatterns patterns (host x) with
    | none => rfl
    | some matched =>
      rw [Option.isNone_some, Bool.false_or, List.filter_cons, tryPatterns_some ht]
      split
      · rfl
      · cases matched <;> rfl

theorem on_found_some {result : Option α} {a : α} (h : result = some a) (next : α → Session β)
    (s : Store) : on (found result >>= next) s = on (next a) s := by
  rw [h]
  rfl

theorem on_found_none {result : Option α} (h : result = none) (next : α → Session β) (s : Store) :
    on (found result >>= next) s = (.error (.storage .patternTooLong), s) := by
  rw [h]
  rfl

/-- The redirects that no pattern matches, as they are found and as a rebuild takes them. -/
theorem redirectItems_eq (s : Store) (patterns : List (List Char)) :
    sortBy redirectLe
      (((s.items.filter s.isTried).filter (!isAllowedBy patterns ·.host)).filter s.isActive) =
        s.redirectItems patterns := by
  rw [redirectItems, activeItems, List.filter_filter, List.filter_filter, List.filter_filter]
  refine congrArg _ (List.filter_congr fun i _ => ?_)
  cases hactive : s.isActive i with
  | false => simp
  | true =>
    -- an item that counts has a source, is enabled and of a generation that counts
    simp only [isActive, Bool.and_eq_true] at hactive
    obtain ⟨⟨henabled, hgeneration⟩, howner⟩ := hactive
    have hknown : s.knows i.source = true := by
      obtain ⟨x, hx, hid⟩ := List.any_eq_true.mp howner
      exact List.any_eq_true.mpr ⟨x, hx, (Bool.and_eq_true_iff.mp hid).1⟩
    rw [isTried, henabled, hgeneration, hknown]
    simp only [Bool.true_and, Bool.and_true]
    ac_rfl

/-- The passes one after the other: the carving, the search for redirects, and their rows. -/
theorem on_passes (s : Store) :
    on rebuildTable s = match unmatched s.allowPatterns (·.host) s.blockedRows with
      | none => (.error (.storage .patternTooLong), { s with table := s.blockedRows })
      | some kept => match unmatched s.allowPatterns (·.host) (s.items.filter s.isTried) with
        | none => (.error (.storage .patternTooLong), { s with table := kept })
        | some free =>
          let redirects := firstPerHost none (sortBy redirectLe (free.filter s.isActive))
          (.ok {
              blocked := s.blockedRows.length
              allowPatterns := s.allowPatterns.length
              carvedOut := s.blockedRows.length - kept.length
              redirected := redirects.length },
            { s with
              table := redirects.foldl (fun table i => insertRow (redirectRow i) table) kept }) := by
  rw [rebuildTable, on_write_bind, on_write_bind, on_get_bind]
  cases hkept : unmatched s.allowPatterns (·.host) s.blockedRows with
  | none => exact on_found_none hkept _ _
  | some kept =>
    refine (on_found_some hkept _ _).trans ?_
    rw [on_write_bind]
    dsimp only
    cases hfree : unmatched s.allowPatterns (·.host) (s.items.filter s.isTried) with
    | none => exact on_found_none hfree _ _
    | some free =>
      have hrows := on_forM_write (fun i s => s.putRow (redirectRow i))
        (firstPerHost none (sortBy redirectLe (free.filter s.isActive))) { s with table := kept }
      rw [← List.foldl_map (f := redirectRow) (g := fun (s : Store) row => s.putRow row),
        foldl_putRow, List.foldl_map] at hrows
      exact (on_found_some hfree _ _).trans (on_bind_of_ok hrows)

/-- The passes make the table that a rebuild comes to, or none of them counts. -/
theorem on_rebuildTable (s : Store) :
    on (together rebuildTable) s = match s.sync with
      | .ok (summary, s') => (.ok summary, s')
      | .error e => (.error e, s) := by
  have hrefused : s.isRefused =
      ((s.blockedRows.any fun row => (tryPatterns s.allowPatterns row.host).isNone) ||
        (s.items.filter s.isTried).any fun i => (tryPatterns s.allowPatterns i.host).isNone) := by
    rw [isRefused, triedHosts, List.any_append, List.any_map, List.any_map]
    rfl
  rw [on_together, on_passes, unmatched_eq, unmatched_eq]
  cases hblocked : s.blockedRows.any fun row => (tryPatterns s.allowPatterns row.host).isNone with
  | true =>
    rw [hblocked, Bool.true_or] at hrefused
    rw [sync_refused hrefused]
    rfl
  | false =>
    rw [hblocked, Bool.false_or] at hrefused
    cases hredirected : (s.items.filter s.isTried).any fun i =>
        (tryPatterns s.allowPatterns i.host).isNone with
    | true =>
      rw [sync_refused (hrefused.trans hredirected)]
      rfl
    | false =>
      rw [sync, if_neg (Bool.eq_false_iff.mp (hrefused.trans hredirected)), rebuild,
        ← redirectItems_eq]
      rfl

/-- Items are added one after the other if there is a source that they belong to. -/
theorem on_forM_insertItem {source : Int} (xs : List α) {f : α → Item}
    (hf : ∀ a, (f a).source = source) (s : Store) :
    on (xs.forM fun a => insertItem (f a)) s =
      if s.knows source || xs.isEmpty then (.ok (), { s with items := s.items ++ xs.map f })
      else (.error (.storage .unknownOwner), s) := by
  induction xs generalizing s with
  | nil => simp [on_pure]
  | cons a xs ih =>
    show on (insertItem (f a) >>= fun _ => xs.forM fun a => insertItem (f a)) s = _
    rw [on_bind, insertItem, on_attempt, putItem, hf]
    cases hk : s.knows source with
    | false => rfl
    | true =>
      refine (ih { s with items := s.items ++ [f a] }).trans ?_
      have hk' : Store.knows { s with items := s.items ++ [f a] } source = true := hk
      simp [hk']

end Session

/-! ### Operations -/

namespace Operation

open Session

/-- **An operation is taken in one go or not at all**: one that is refused leaves the store as it
was. -/
theorem carryOut_on (op : Operation) (s : Store) :
    on op.carryOut s = match op.apply s with
      | .ok (answer, s') => (.ok answer, s')
      | .error e => (.error e, s) := by
  cases op with
  | add r =>
    rw [carryOut, apply, on_bind, on_attempt]
    cases s.add r <;> rfl
  | upsert r => rfl
  | remove id =>
    rw [carryOut, apply, Store.remove]
    by_cases hid : id = Source.userId
    · rw [if_pos hid, if_pos hid]
      rfl
    · rw [if_neg hid, if_neg hid, on_bind, on_deleteSource]
      dsimp only
      rw [on_bind, on_ensure]
      cases hk : s.knows id with
      | true =>
        rw [if_neg (by rw [length_sourcesWith_eq_zero, hk]; decide)]
        simp only [any_sourcesWith hk]
        rfl
      | false =>
        rw [if_pos (length_sourcesWith_eq_zero.mpr hk), sourcesWith_eq_nil.mpr hk,
          sourcesWithout_eq_self hk]
        simp only [List.any_nil, Bool.not_false, List.filter_true]
        rfl
  | setEnabled id enabled =>
    rw [carryOut, apply, Store.setEnabled, on_bind, on_updateSource]
    dsimp only
    rw [on_bind, on_ensure]
    cases hk : s.knows id with
    | true =>
      rw [if_neg (by rw [length_sourcesWith_eq_zero, hk]; decide)]
      rfl
    | false =>
      rw [if_pos (length_sourcesWith_eq_zero.mpr hk), modifySource_unknown hk]
      rfl
  | clearCache id => rfl
  | setRemoteModified id at? => rfl
  | updateMetadata id learned => rfl
  | insertItems source generation entries =>
    rw [carryOut, apply, Store.insertItems]
    cases entries with
    | nil => rfl
    | cons e entries =>
      have hrows := on_forM_insertItem (f := Item.ofEntry source generation) (e :: entries)
        (fun _ => rfl) s
      rw [List.isEmpty_cons, if_neg Bool.false_ne_true, if_neg Bool.false_ne_true, on_bind,
        on_together, hrows]
      cases s.knows source <;> rfl
  | clearItems source generation => rfl
  | carryForward source old new =>
    rw [carryOut, apply, Store.carryForward]
    by_cases hsame : old = new
    · rw [if_pos hsame, if_pos hsame]
      rfl
    · rw [if_neg hsame, if_neg hsame]
      have hkept : Store.itemsOf { s with items := s.items.filter (!·.isOf source new) } source old =
          s.itemsOf source old := by
        refine filter_filter_of_imp (fun i hi => ?_) s.items
        simp [Item.isOf, (Item.isOf_iff.mp hi).2, hsame]
      rw [on_bind, on_together, on_bind, on_deleteItems]
      dsimp only
      rw [on_copyItems, hkept]
      rfl
  | promote source staged new => rfl
  | commit target learned =>
    rw [carryOut, apply, on_bind, on_together, on_write_bind]
    have hlearned := on_forM_write (fun (l : Int × Metadata) s => s.updateMetadata l.1 l.2) learned
    rw [hlearned]
    rfl
  | purge =>
    rw [carryOut, apply, on_get_bind, on_bind,
      on_deleteItems_keep (·.generation == s.active) fun i => by
        simp [bne, Bool.or_comm]]
    rfl
  | discard =>
    rw [carryOut, apply, on_get_bind, on_bind,
      on_deleteItems_keep (decide <| ·.generation ≤ s.active) fun i => by
        simp [bne, Bool.or_comm, ← decide_not]]
    rfl
  | addUser e =>
    rw [carryOut, apply, Store.addUser, on_bind, on_together, on_bind, on_deleteItems]
    dsimp only
    have hknows : Store.knows { s with items := s.items.filter (!isUserItemFor e.host ·) }
        (Item.ofEntry Source.userId userGeneration e).source = s.knows Source.userId := rfl
    rw [on_insertItem, hknows]
    cases s.knows Source.userId <;> rfl
  | removeUser host =>
    have hfound : decide (0 < (s.items.filter (isUserItemFor host)).length) =
        s.items.any (isUserItemFor host) := by
      rw [Bool.eq_iff_iff, decide_eq_true_iff, List.length_pos_iff, List.any_eq_true]
      simp
    rw [carryOut, apply, on_bind, on_deleteItems]
    dsimp only
    rw [hfound]
    rfl
  | sync =>
    rw [carryOut, apply, on_bind, on_rebuildTable]
    cases s.sync with
    | ok result => rfl
    | error e => rfl

end Operation

end Sinkhole.Store
