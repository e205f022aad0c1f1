import Sinkhole.Proofs.Store.InForce
import Sinkhole.Proofs.Update.Adopted
import Sinkhole.Proofs.Update.One

/-! When the table is the one that a rebuild would make.

A rebuild reads what is in force and nothing else of a store. Every way to commit ends
in one but that over one source that turned out to be unchanged: it notes the time its
server reports, and leaves a table that was out of date before it as it was. A run whose
rebuild is refused has not committed; its table is as up to date as one can be made. -/
namespace Sinkhole

namespace Store

/-- The table is the one that a rebuild makes. -/
def InSync (s : Store) : Prop := s.isRefused = false ∧ s.table = s.rebuild.2

instance (s : Store) : Decidable s.InSync := inferInstanceAs (Decidable (_ ∧ _))

theorem synced_inSync {s : Store} (h : s.isRefused = false) : s.synced.InSync :=
  ⟨h, synced_table h⟩

/-- The table is the one that a rebuild makes, if it makes one at all. -/
def UpToDate (s : Store) : Prop := s.isRefused = false → s.table = s.rebuild.2

theorem InSync.upToDate {s : Store} (h : s.InSync) : s.UpToDate := fun _ => h.2

theorem synced_upToDate (s : Store) : s.synced.UpToDate := fun h => synced_table h

/-- How durable writes are has no part in it. -/
theorem inSync_durability {s : Store} {d : Durability} :
    { s with durability := d }.InSync ↔ s.InSync := Iff.rfl

/-- Nor has anything but what is in force. -/
theorem Alike.inSync {s s' : Store} (h : Alike s s') (ht : s'.table = s.table) :
    s'.InSync ↔ s.InSync := by
  rw [InSync, InSync, h.rebuild_eq, h.isRefused_eq, ht]

theorem Alike.upToDate {s s' : Store} (h : Alike s s') (ht : s'.table = s.table)
    (hs : s.UpToDate) : s'.UpToDate := by
  intro hmade
  rw [ht, h.rebuild_eq]
  exact hs (h.isRefused_eq.symm.trans hmade)

theorem modifySource_alike {s : Store} {id : Int} {f : Source → Source}
    (hf : ∀ x, (f x).id = x.id ∧ (f x).enabled = x.enabled) : Alike s (s.modifySource id f) where
  sources := s.modifySource_map fun x => by rw [(hf x).1, (hf x).2]
  items := fun _ _ _ => .of_eq rfl
  user := rfl

theorem modifySource_inSync {s : Store} {id : Int} {f : Source → Source}
    (hf : ∀ x, (f x).id = x.id ∧ (f x).enabled = x.enabled) :
    (s.modifySource id f).InSync ↔ s.InSync := (modifySource_alike hf).inSync rfl

/-- Items of another generation than the active one have no part in it. -/
theorem ChangesOnly.alike {s s' : Store} {id generation : Int}
    (h : ChangesOnly (·.isOf id generation) s s') (hid : id ≠ Source.userId)
    (hg : s.active ≠ generation) : Alike s s' where
  sources := by rw [h.sources]
  items := fun _ _ _ => by
    rw [h.active, h.itemsOf_of_staged hg]
    exact .of_eq rfl
  user := h.ofSource.owned_of_ne hid.symm

end Store

namespace Update

open Work (upon)

variable {σ : Type} (w : World σ) (s : Setup) (task : Option String) (u : Updater σ)

theorem updateAll_inSync {report : Report} (h : (updateAll w s task u).1 = .ok report)
    (hc : report.committed = true) : (updateAll w s task u).2.store.InSync := by
  obtain ⟨start, last, run, going, made, hstore⟩ := updateAll_committed w s task u h hc
  rw [hstore]
  exact Store.synced_inSync made

theorem updateOne_inSync (id : Int) {report : Report}
    (h : (updateOne w s id task u).1 = .ok report) (hc : report.committed = true) :
    (updateOne w s id task u).2.store.InSync ↔ report.unchanged = 0 ∨ u.store.InSync := by
  have hends := updateOne_ends w s id task u
  rw [h] at hends
  generalize (updateOne w s id task u).2.store = after at hends ⊢
  generalize (updateOne w s id task u).2.control.stopped = halted at hends
  cases hends with
  | refreshed hs hidle hcommit hunchanged hgoing made =>
    exact iff_of_true (Store.synced_inSync made) (.inl hunchanged)
  | @fetched source _ u' hr hs huser ends =>
    have hstore := Fetch.fetch_store w s.fetch source (atFetch task source u)
    generalize upon (Fetch.fetch w s.fetch source) (atFetch task source u) = answered
      at ends hstore
    obtain ⟨fetched, u₁⟩ := answered
    have hbefore : u₁.store.InSync ↔ u.store.InSync := by
      rw [show u₁.store = { u.store with durability := .relaxed } from hstore]
      exact Store.inSync_durability
    cases ends with
    | unchanged remoteModified m =>
      rw [Store.inSync_durability, ← hbefore]
      refine Iff.trans ?_ (or_iff_right (show ¬(1 : Nat) = 0 from Nat.one_ne_zero)).symm
      dsimp only
      split
      · exact Store.modifySource_inSync fun _ => ⟨rfl, rfl⟩
      · exact Iff.rfl
    | updated d opened m read confined hcommit hunchanged items hgoing made =>
      exact iff_of_true (Store.synced_inSync made) (.inl hunchanged)
    | dropped d unread confined unfinished =>
      rw [unfinished.2] at hc
      cases hc

/-- **A committed run leaves the table in order, but for one over a source that is unchanged**:
that one leaves it in order exactly if it was in order before. -/
theorem committed_inSync :
    (∀ report, (updateAll w s task u).1 = .ok report → report.committed = true →
      (updateAll w s task u).2.store.InSync) ∧
    ∀ id report, (updateOne w s id task u).1 = .ok report → report.committed = true →
      ((updateOne w s id task u).2.store.InSync ↔ report.unchanged = 0 ∨ u.store.InSync) :=
  ⟨fun _ h hc => updateAll_inSync w s task u h hc,
    fun id _ h hc => updateOne_inSync w s task u id h hc⟩

/-- The table of `assorted` is out of date: a run over all sources puts it in order, and one over
its unchanged source does not. -/
theorem committed_inSync_assorted :
    (updateAll shelf plain none atDesk).1 = .ok assortedReport ∧
      (updateAll shelf plain none atDesk).2.store.InSync ∧
      (updateOne shelf plain 3 none atDesk).1 =
        .ok { generation := 7, committed := true, unchanged := 1 } ∧
      ¬(updateOne shelf plain 3 none atDesk).2.store.InSync := by
  have hall : (updateAll shelf plain none atDesk).1 = .ok assortedReport := by decide +kernel
  have hone : (updateOne shelf plain 3 none atDesk).1 =
      .ok { generation := 7, committed := true, unchanged := 1 } := by decide +kernel
  obtain ⟨hsynced, hstale⟩ := committed_inSync shelf plain none atDesk
  refine ⟨hall, hsynced _ hall rfl, hone, fun h => ?_⟩
  rcases (hstale 3 _ hone rfl).mp h with hzero | hbefore
  · exact nomatch hzero
  · exact absurd hbefore (by decide +kernel)

end Update

end Sinkhole
