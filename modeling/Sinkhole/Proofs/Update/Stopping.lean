import Sinkhole.Proofs.Update.Adopted
import Sinkhole.Proofs.Update.One

/-! What a stop that comes in during a run leads to.

A run over all sources looks at the control after its last visit, so it commits nothing
once there was a stop, at whatever point it came. A run over one source looks before it
takes the content in and at every thousandth line, and not again. A stop is overlooked by
it if there is no such look any more: while the fetch brings the answer that nothing has
changed, or behind the last thousandth line. In every other case what is in force stays
as it was. -/
namespace Sinkhole.Update

open Work (upon)

variable {σ : Type}

/-- What is in force, and what is known of the sources that are on, is as it was. -/
structure Undisturbed (before after : Store) : Prop where
  active : after.active = before.active
  table : after.table = before.table
  sources : after.sources.filter (·.enabled) = before.sources.filter (·.enabled)
  items : ∀ source ∈ before.sources, source.enabled = true →
    after.itemsOf source.id before.active = before.itemsOf source.id before.active
  user : after.owned Source.userId = before.owned Source.userId

namespace Undisturbed

variable {before after : Store}

theorem refl (s : Store) : Undisturbed s s := ⟨rfl, rfl, rfl, fun _ _ _ => rfl, rfl⟩

/-- Items staged for a source are not in force. -/
theorem of_changes {id : Int} (hu : id ≠ Source.userId)
    (h : Store.ChangesOnly (·.isOf id (before.active + 1)) before after) :
    Undisturbed before after where
  active := h.active
  table := h.table
  sources := by rw [h.sources]
  items := fun source _ _ => h.itemsOf_of_staged (by omega)
  user := h.ofSource.owned_of_ne hu.symm

end Undisturbed

/-! ### Runs over all sources -/

/-- Until it adopts what it staged, a run over all sources disturbs nothing. -/
theorem FullRun.undisturbed {w : World σ} {s : Setup} {u start last : Updater σ}
    {visits : List (Visit σ)} (h : FullRun w s u start visits last) (hk : u.store.Keyed) :
    Undisturbed u.store last.store where
  active := by rw [h.confined.store.active, h.store, cleared_active]
  table := by rw [h.confined.store.table, h.store, cleared_table]
  sources := by
    rw [h.sources]
    exact cleared_enabled u.store hk
  items := fun source hs he => h.itemsOf_active (idle_ne hk hs he)
  user := h.owned_user

/-! ### Runs over one source -/

/-- The run over a source gets to the end of its fetch with no look at the control to come, or to
the end of the content with none that sees a stop. -/
def Overlooked (w : World σ) (s : Setup) (id : Int) (task : Option String) (u : Updater σ) : Prop :=
  u.running = false ∧ ∃ source, u.store.source id = .ok source ∧
    ((∃ remoteModified, (upon (Fetch.fetch w s.fetch source) (atFetch task source u)).1 =
        .ok (.unchanged remoteModified)) ∨
      ∃ opened, Brings w s source (atFetch task source u) opened)

variable (w : World σ) (s : Setup) (task : Option String) (u : Updater σ)

theorem updateAll_halted (hk : u.store.Keyed)
    (hs : (updateAll w s task u).2.control.stopped = true) :
    Unfinished (updateAll w s task u).1 ∧ Undisturbed u.store (updateAll w s task u).2.store := by
  have hends := updateAll_ends w s task u
  generalize (updateAll w s task u).1 = r at hends ⊢
  generalize (updateAll w s task u).2.store = after at hends ⊢
  generalize (updateAll w s task u).2.control.stopped = halted at hs hends
  cases hends with
  | refused => exact ⟨rfl, .refl u.store⟩
  | unreachable => cases hs
  | stopped run halted hstop hcommit =>
    have hlast := run.undisturbed hk
    exact ⟨⟨hstop, hcommit⟩, hlast.active, hlast.table, hlast.sources, hlast.items, hlast.user⟩
  | fruitless run n going => cases hs
  | adopted run going hstop hcommit => cases hs
  | untabled run going => cases hs

theorem updateOne_halted (id : Int) (hs : (updateOne w s id task u).2.control.stopped = true) :
    (Overlooked w s id task u →
      (∃ report, (updateOne w s id task u).1 = .ok report ∧ report.committed = true) ∨
        (updateOne w s id task u).1 = .error (.storage .patternTooLong)) ∧
    (¬Overlooked w s id task u → Unfinished (updateOne w s id task u).1 ∧
      Undisturbed u.store (updateOne w s id task u).2.store) := by
  have hends := updateOne_ends w s id task u
  generalize (updateOne w s id task u).1 = r at hends ⊢
  generalize (updateOne w s id task u).2.store = after at hends ⊢
  generalize (updateOne w s id task u).2.control.stopped = halted at hs hends
  cases hends with
  | refused hr =>
    refine ⟨fun ho => ?_, fun _ => ⟨rfl, .refl u.store⟩⟩
    rw [ho.1] at hr
    cases hr
  | early e => cases hs
  | refreshed => cases hs
  | untabled => cases hs
  | @fetched source _ u' hr hsource huser ends =>
    have hstore := Fetch.fetch_store w s.fetch source (atFetch task source u)
    -- to be overlooked is to take effect, so a run that is not left everything as it was
    have hover : hasTakenEffect r = true ↔ Overlooked w s id task u := by
      rw [ends.hasTakenEffect_iff]
      constructor
      · rintro (h | ⟨d, opened, hfetch, hread⟩)
        · exact ⟨hr, source, hsource, .inl h⟩
        · exact ⟨hr, source, hsource, .inr ⟨opened, d, _, Prod.ext hfetch rfl, hread⟩⟩
      · rintro ⟨-, other, hother, h⟩
        rw [hsource] at hother
        injection hother with hother
        subst hother
        refine h.imp_right ?_
        rintro ⟨opened, d, u₁, hfetch, hread⟩
        rw [hfetch]
        exact ⟨d, opened, rfl, hread⟩
    refine ⟨fun ho => ends.of_hasTakenEffect (hover.mpr ho), fun hn => ?_⟩
    obtain ⟨hr, hchanges⟩ := ends.unfinished (Bool.eq_false_iff.mpr fun hc => hn (hover.mp hc))
    rw [hstore] at hchanges
    have hrelaxed : Undisturbed { u.store with durability := .relaxed } u'.store :=
      .of_changes (beq_eq_false_iff_ne.mp huser) hchanges
    exact ⟨hr, hrelaxed.active, hrelaxed.table, hrelaxed.sources, hrelaxed.items, hrelaxed.user⟩

/-- **A stop that comes in during a run keeps it from committing, unless it is overlooked**: a
run over all sources overlooks none, and one over a source overlooks exactly those that no look
at the control follows. Then it commits, or all but the table is as if it had. -/
theorem stop_heeded (hk : u.store.Keyed) :
    ((updateAll w s task u).2.control.stopped = true →
      Unfinished (updateAll w s task u).1 ∧
        Undisturbed u.store (updateAll w s task u).2.store) ∧
    ∀ id, (updateOne w s id task u).2.control.stopped = true →
      (Overlooked w s id task u →
        (∃ report, (updateOne w s id task u).1 = .ok report ∧ report.committed = true) ∨
          (updateOne w s id task u).1 = .error (.storage .patternTooLong)) ∧
      (¬Overlooked w s id task u → Unfinished (updateOne w s id task u).1 ∧
        Undisturbed u.store (updateOne w s id task u).2.store) :=
  ⟨updateAll_halted w s task u hk, fun id => updateOne_halted w s task u id⟩

/-- Files as on `shelf`, but a stop comes in when their first line has been read. -/
def hurried : World Unit :=
  { shelf with
    openFile := fun _ _ =>
      { answer := .ok { reading := { bytes := [97, 46, 98, 10] }, meanwhile := [(1, .stop)] }
        world := () } }

/-- A stop behind the last look at the control: a run over all sources heeds it, and one over a
source commits. -/
theorem stop_heeded_hurried :
    assorted.Keyed ∧ (updateAll hurried plain none atDesk).2.control.stopped = true ∧
      Unfinished (updateAll hurried plain none atDesk).1 ∧
      Undisturbed assorted (updateAll hurried plain none atDesk).2.store ∧
      (updateOne hurried plain 2 none atDesk).2.control.stopped = true ∧
      Overlooked hurried plain 2 none atDesk ∧
      ∃ report, (updateOne hurried plain 2 none atDesk).1 = .ok report ∧
        report.committed = true := by
  have hkeyed : assorted.Keyed := by decide
  have hall : (updateAll hurried plain none atDesk).2.control.stopped = true := by decide +kernel
  have hone : (updateOne hurried plain 2 none atDesk).2.control.stopped = true := by decide +kernel
  have hcommitted : (updateOne hurried plain 2 none atDesk).1 = .ok
      { generation := 7, committed := true, updated := 1, hostsParsed := 1
        summary := some { blocked := 4 } } := by decide +kernel
  obtain ⟨hheeded, hover⟩ := stop_heeded hurried plain none atDesk hkeyed
  obtain ⟨hcommits, hhalts⟩ := hover 2 hone
  have hoverlooked : Overlooked hurried plain 2 none atDesk := by
    refine Classical.byContradiction fun hn => ?_
    have hunfinished := (hhalts hn).1
    rw [hcommitted] at hunfinished
    exact nomatch hunfinished.2
  refine ⟨hkeyed, hall, (hheeded hall).1, (hheeded hall).2, hone, hoverlooked,
    (hcommits hoverlooked).resolve_right fun hfailed => ?_⟩
  rw [hcommitted] at hfailed
  cases hfailed

end Sinkhole.Update
