import Sinkhole.Updater
import Sinkhole.Proofs.Store.Items

/-! What a part of a run does to an updater.

`upon` carries a part of a run out. For each way to make one there is an equation
that says what it comes to, so what a run does is found by taking it apart in order.
Most parts touch little: `Confined p` is said of work that writes nothing but items
that `p` takes and takes no stop back, and it passes from parts to what is made of
them. -/
namespace Sinkhole

namespace Updater

variable {σ : Type} (u : Updater σ)

/-! ### Hearing signals -/

theorem hear_store (x : Signal) : (u.hear x).store = u.store := by
  cases x with
  | stop => rfl
  | pause => rfl
  | interrupt => rfl
  | attempt run =>
    unfold hear enter
    cases u.running <;> rfl

theorem hear_stopped (x : Signal) :
    (u.hear x).control.stopped = (u.control.stopped || x.stops) := by
  cases x with
  | stop => exact u.control.stop_stopped.trans (Bool.or_true _).symm
  | pause =>
    rw [Signal.stops, Bool.or_false]
    exact u.control.pause_stopped
  | interrupt => exact u.control.stop_stopped.trans (Bool.or_true _).symm
  | attempt run =>
    rw [Signal.stops, Bool.or_false]
    unfold hear enter
    cases u.running <;> rfl

theorem hearAll_store (signals : List Signal) : (signals.foldl hear u).store = u.store := by
  induction signals generalizing u with
  | nil => rfl
  | cons x signals ih => exact (ih (u.hear x)).trans (u.hear_store x)

/-- A stop is in force after signals if it was before or one of them is a reason to stop. -/
theorem hearAll_stopped (signals : List Signal) :
    (signals.foldl hear u).control.stopped = (u.control.stopped || signals.any Signal.stops) := by
  induction signals generalizing u with
  | nil => exact (Bool.or_false _).symm
  | cons x signals ih =>
    rw [List.foldl_cons, ih, hear_stopped, List.any_cons, Bool.or_assoc]

theorem hear_deeds (x : Signal) : (u.hear x).deeds = u.deeds := by
  cases x with
  | stop => rfl
  | pause => rfl
  | interrupt => rfl
  | attempt run =>
    unfold hear enter
    cases u.running <;> rfl

theorem hearAll_deeds (signals : List Signal) : (signals.foldl hear u).deeds = u.deeds := by
  induction signals generalizing u with
  | nil => rfl
  | cons x signals ih => exact (ih (u.hear x)).trans (u.hear_deeds x)

theorem hear_running (x : Signal) : (u.hear x).running = u.running := by
  cases x with
  | stop => rfl
  | pause => rfl
  | interrupt => rfl
  | attempt run =>
    unfold hear
    cases u.enter <;> rfl

theorem hearAll_running (signals : List Signal) :
    (signals.foldl hear u).running = u.running := by
  induction signals generalizing u with
  | nil => rfl
  | cons x signals ih => exact (ih (u.hear x)).trans (u.hear_running x)

/-! ### Changes within bounds -/

/-- Nothing was written but items that `p` takes, and a stop that was in force still is. -/
structure Confined (p : Item → Bool) (u u' : Updater σ) : Prop where
  store : Store.ChangesOnly p u.store u'.store
  stopped : u.control.stopped = true → u'.control.stopped = true

namespace Confined

variable {p q : Item → Bool} {u u' u'' : Updater σ}

theorem refl (p : Item → Bool) (u : Updater σ) : Confined p u u := ⟨.refl p u.store, id⟩

theorem trans (h : Confined p u u') (h' : Confined p u' u'') : Confined p u u'' :=
  ⟨h.store.trans h'.store, fun hs => h'.stopped (h.stopped hs)⟩

theorem mono (h : Confined p u u') (hpq : ∀ i, p i = true → q i = true) : Confined q u u' :=
  ⟨h.store.mono hpq, h.stopped⟩

end Confined

end Updater

namespace Work

variable {σ α β : Type}

/-- What comes of a part of a run, and the updater after it. -/
def upon (work : Work σ α) (u : Updater σ) : Except Error α × Updater σ := (work.run).run u

/-- What comes of work whose result is known. -/
theorem upon_of_fst {work : Work σ α} {u : Updater σ} {a : α} (h : (upon work u).1 = .ok a) :
    upon work u = (.ok a, (upon work u).2) := Prod.ext h rfl

/-! ### Parts one after the other -/

theorem upon_bind (work : Work σ α) (next : α → Work σ β) (u : Updater σ) :
    upon (work >>= next) u = match upon work u with
      | (.ok a, u') => upon (next a) u'
      | (.error e, u') => (.error e, u') := by
  unfold upon
  simp only [ExceptT.run_bind, StateT.run_bind]
  cases StateT.run work.run u with
  | mk r u' => cases r <;> rfl

theorem upon_bind_of_ok {work : Work σ α} {next : α → Work σ β} {u u' : Updater σ} {a : α}
    (h : upon work u = (.ok a, u')) : upon (work >>= next) u = upon (next a) u' := by
  rw [upon_bind, h]

theorem upon_bind_of_error {work : Work σ α} {next : α → Work σ β} {u u' : Updater σ} {e : Error}
    (h : upon work u = (.error e, u')) : upon (work >>= next) u = (.error e, u') := by
  rw [upon_bind, h]

/-- Work in two parts that has a result had one from each. -/
theorem of_upon_bind {work : Work σ α} {next : α → Work σ β} {u u' : Updater σ} {b : β}
    (h : upon (work >>= next) u = (.ok b, u')) :
    ∃ a u₁, upon work u = (.ok a, u₁) ∧ upon (next a) u₁ = (.ok b, u') := by
  rw [upon_bind] at h
  cases hw : upon work u with
  | mk r u₁ =>
    rw [hw] at h
    cases r with
    | ok a => exact ⟨a, u₁, rfl, h⟩
    | error e => cases h

theorem upon_map (f : α → β) (work : Work σ α) (u : Updater σ) :
    upon (f <$> work) u = ((upon work u).1.map f, (upon work u).2) := by
  unfold upon
  rw [ExceptT.run_map, StateT.run_map]
  rfl

theorem upon_tryCatch (work : Work σ α) (handler : Error → Work σ α) (u : Updater σ) :
    upon (tryCatch work handler) u = match upon work u with
      | (.ok a, u') => (.ok a, u')
      | (.error e, u') => upon (handler e) u' := by
  unfold upon
  simp only [tryCatch, tryCatchThe, MonadExceptOf.tryCatch, ExceptT.tryCatch, ExceptT.run_mk,
    StateT.run_bind]
  cases h : StateT.run (ExceptT.run work) u with
  | mk r u' =>
    have hrun : StateT.run work u = (r, u') := h
    rw [hrun]
    cases r <;> rfl

/-- The outcome of work is always there, and the updater is as the work left it. -/
@[simp]
theorem upon_outcome (work : Work σ α) (u : Updater σ) :
    upon (outcome work) u = (.ok (upon work u).1, (upon work u).2) := by
  unfold outcome
  rw [upon_tryCatch, upon_map]
  cases upon work u with
  | mk r u' => cases r <;> rfl

/-! ### Single steps -/

theorem upon_get_bind (next : Updater σ → Work σ α) (u : Updater σ) :
    upon (get >>= next) u = upon (next u) u := rfl

@[simp]
theorem upon_onStore (f : Store → Store) (u : Updater σ) :
    upon (onStore f) u = (.ok (), { u with store := f u.store }) := rfl

@[simp]
theorem upon_onProgress (f : Progress → Progress) (u : Updater σ) :
    upon (onProgress f) u = (.ok (), { u with progress := f u.progress }) := rfl

@[simp]
theorem upon_isStopped (u : Updater σ) :
    upon (isStopped : Work σ Bool) u = (.ok u.control.stopped, u) := rfl

@[simp]
theorem upon_observe (ask : σ → Observed σ α) (u : Updater σ) :
    upon (observe ask) u = (.ok (ask u.world).answer,
      (ask u.world).signals.foldl Updater.hear { u with world := (ask u.world).world }) := rfl

/-! ### Whole runs -/

/-- The updater that the work of an admitted run starts from. -/
def started (task : Option String) (u : Updater σ) : Updater σ :=
  { u with
    running := true, control := {}, deeds := [], refused := []
    progress := u.progress.begin task }

/-- A run that is admitted ends with its meter published once more. -/
theorem supervised_idle (task : Option String) (work : Work σ α) {u : Updater σ}
    (h : u.running = false) :
    supervised task work u = ((upon work (started task u)).1,
      { (upon work (started task u)).2 with
        progress := (upon work (started task u)).2.progress.finish, running := false }) := by
  unfold supervised Updater.enter
  rw [h]
  rfl

/-- A run is refused while another is under way; otherwise what its work comes to it comes to. -/
theorem supervised_cases (task : Option String) (work : Work σ α) (u : Updater σ) :
    (u.running = true ∧ supervised task work u = (.error .alreadyRunning, u)) ∨
    (u.running = false ∧ ∃ m, supervised task work u = ((upon work (started task u)).1,
      { (upon work (started task u)).2 with progress := m, running := false })) := by
  cases hr : u.running with
  | true =>
    refine .inl ⟨rfl, ?_⟩
    unfold supervised Updater.enter
    rw [hr]
    rfl
  | false => exact .inr ⟨rfl, _, supervised_idle task work hr⟩

/-- The run that is over lets the next one in. -/
theorem supervised_running (task : Option String) (work : Work σ α) {u : Updater σ}
    (h : u.running = false) : (supervised task work u).2.running = false := by
  rcases supervised_cases task work u with ⟨hr, -⟩ | ⟨-, m, hrun⟩
  · simp [h] at hr
  · rw [hrun]

/-! ### Work within bounds -/

/-- The work keeps within `p` wherever it starts, whether or not it fails. -/
def Confined (p : Item → Bool) (work : Work σ α) : Prop :=
  ∀ u : Updater σ, u.Confined p (upon work u).2

namespace Confined

variable {p : Item → Bool}

theorem pure (a : α) : Confined p (pure a : Work σ α) := fun u => .refl p u

theorem throw (e : Error) : Confined p (throw e : Work σ α) := fun u => .refl p u

theorem bind {work : Work σ α} {next : α → Work σ β} (hw : Confined p work)
    (hn : ∀ a, Confined p (next a)) : Confined p (work >>= next) := by
  intro u
  have hu := hw u
  rw [upon_bind]
  cases h : upon work u with
  | mk r u' =>
    rw [h] at hu
    cases r with
    | ok a => exact hu.trans (hn a u')
    | error e => exact hu

theorem outcome {work : Work σ α} (hw : Confined p work) : Confined p (outcome work) := by
  intro u
  rw [upon_outcome]
  exact hw u

theorem onProgress (f : Progress → Progress) : Confined p (onProgress f : Work σ Unit) :=
  fun u => ⟨.refl p u.store, id⟩

theorem note (d : Deed) : Confined p (note d : Work σ Unit) := fun u => ⟨.refl p u.store, id⟩

theorem isStopped : Confined p (isStopped : Work σ Bool) := fun u => .refl p u

theorem observe (ask : σ → Observed σ α) : Confined p (observe ask) := by
  intro u
  rw [upon_observe]
  refine ⟨?_, fun hs => ?_⟩
  · rw [Updater.hearAll_store]
    exact .refl p u.store
  · rw [Updater.hearAll_stopped, hs, Bool.true_or]

end Confined

/-! ### Work that keeps something -/

/-- What `f` reads of the store is the same after the work, whether or not it fails. -/
def Keeps {κ : Type} (f : Store → κ) (work : Work σ α) : Prop :=
  ∀ u : Updater σ, f (upon work u).2.store = f u.store

namespace Keeps

variable {κ : Type} {f : Store → κ}

/-- Work that writes nothing. -/
theorem of_confined {work : Work σ α} (h : Confined (fun _ => false) work) : Keeps f work :=
  fun u => congrArg f (h u).store.eq_of_none

theorem pure (a : α) : Keeps f (pure a : Work σ α) := fun _ => rfl

theorem bind {work : Work σ α} {next : α → Work σ β} (hw : Keeps f work)
    (hn : ∀ a, Keeps f (next a)) : Keeps f (work >>= next) := by
  intro u
  have hu := hw u
  rw [upon_bind]
  cases h : upon work u with
  | mk r u' =>
    rw [h] at hu
    cases r with
    | ok a => exact (hn a u').trans hu
    | error e => exact hu

theorem outcome {work : Work σ α} (hw : Keeps f work) : Keeps f (outcome work) := by
  intro u
  rw [upon_outcome]
  exact hw u

theorem onStore {g : Store → Store} (h : ∀ s, f (g s) = f s) :
    Keeps f (onStore g : Work σ Unit) := fun u => h u.store

theorem onProgress (g : Progress → Progress) : Keeps f (onProgress g : Work σ Unit) := fun _ => rfl

theorem supervised {work : Work σ α} (h : Keeps f work) (task : Option String) (u : Updater σ) :
    f (supervised task work u).2.store = f u.store := by
  rcases supervised_cases task work u with ⟨-, hrun⟩ | ⟨-, m, hrun⟩
  · rw [hrun]
  · rw [hrun]
    exact h (started task u)

end Keeps

/-! ### Results -/

/-- Whatever result the work has, `p` holds of it. -/
def Yields (p : α → Prop) (work : Work σ α) : Prop :=
  ∀ (u : Updater σ) (a : α) (u' : Updater σ), upon work u = (.ok a, u') → p a

namespace Yields

theorem pure {p : α → Prop} {a : α} (h : p a) : Yields p (pure a : Work σ α) := by
  intro u a' u' hu
  injection hu with hu
  injection hu with hu
  exact hu ▸ h

theorem throw (p : α → Prop) (e : Error) : Yields p (throw e : Work σ α) := by
  intro u a u' hu
  cases hu

theorem bind {p : α → Prop} {q : β → Prop} {work : Work σ α} {next : α → Work σ β}
    (hw : Yields p work) (hn : ∀ a, p a → Yields q (next a)) : Yields q (work >>= next) := by
  intro u b u' hu
  obtain ⟨a, u₁, ha, hb⟩ := of_upon_bind hu
  exact hn a (hw u a u₁ ha) u₁ b u' hb

theorem outcome {p : α → Prop} {work : Work σ α} (hw : Yields p work) :
    Yields (fun r => ∀ a, r = .ok a → p a) (outcome work) := by
  intro u r u' hu a hr
  rw [upon_outcome] at hu
  obtain ⟨hu, -⟩ := Prod.mk.inj hu
  injection hu with hu
  exact hw u a (upon work u).2 (Prod.ext (hu.trans hr) rfl)

/-- Every result is one that `fun _ => True` holds of. -/
theorem any (work : Work σ α) : Yields (fun _ => True) work := fun _ _ _ _ => trivial

end Yields

/-! ### Requests -/

/-- Every request that the work sends is one that `q` takes. -/
def Sends (q : Fetch.Request → Prop) (work : Work σ α) : Prop :=
  ∀ u : Updater σ, ∃ deeds, (upon work u).2.deeds = u.deeds ++ deeds ∧
    ∀ r, Deed.sent r ∈ deeds → q r

namespace Sends

variable {q : Fetch.Request → Prop}

/-- Work that does nothing to the outside. -/
theorem of_deeds {work : Work σ α} (h : ∀ u, (upon work u).2.deeds = u.deeds) : Sends q work :=
  fun u => ⟨[], by rw [h, List.append_nil], fun _ hr => absurd hr List.not_mem_nil⟩

theorem pure (a : α) : Sends q (pure a : Work σ α) := of_deeds fun _ => rfl

theorem throw (e : Error) : Sends q (throw e : Work σ α) := of_deeds fun _ => rfl

theorem bind {work : Work σ α} {next : α → Work σ β} (hw : Sends q work)
    (hn : ∀ a, Sends q (next a)) : Sends q (work >>= next) := by
  intro u
  obtain ⟨first, hfirst, hq⟩ := hw u
  rw [upon_bind]
  cases h : upon work u with
  | mk r u' =>
    rw [h] at hfirst
    cases r with
    | error e => exact ⟨first, hfirst, hq⟩
    | ok a =>
      obtain ⟨rest, hrest, hq'⟩ := hn a u'
      refine ⟨first ++ rest, ?_, fun r hr => ?_⟩
      · rw [hrest, hfirst, List.append_assoc]
      · rcases List.mem_append.mp hr with hr | hr
        · exact hq r hr
        · exact hq' r hr

theorem outcome {work : Work σ α} (hw : Sends q work) : Sends q (outcome work) := by
  intro u
  rw [upon_outcome]
  exact hw u

theorem onStore (f : Store → Store) : Sends q (onStore f : Work σ Unit) := of_deeds fun _ => rfl

theorem onProgress (f : Progress → Progress) : Sends q (onProgress f : Work σ Unit) :=
  of_deeds fun _ => rfl

theorem get : Sends q (get : Work σ (Updater σ)) := of_deeds fun _ => rfl

theorem isStopped : Sends q (isStopped : Work σ Bool) := of_deeds fun _ => rfl

theorem observe (ask : σ → Observed σ α) : Sends q (observe ask) := by
  refine of_deeds fun u => ?_
  rw [upon_observe]
  exact Updater.hearAll_deeds _ _

theorem waited (millis : Nat) : Sends q (note (.waited millis) : Work σ Unit) :=
  fun _ => ⟨[.waited millis], rfl, fun _ hr => by simp at hr⟩

theorem sent {r : Fetch.Request} (hr : q r) : Sends q (note (.sent r) : Work σ Unit) :=
  fun _ => ⟨[.sent r], rfl, fun _ hmem => by simp_all⟩

theorem mono {q' : Fetch.Request → Prop} {work : Work σ α} (h : Sends q work)
    (hq : ∀ r, q r → q' r) : Sends q' work := by
  intro u
  obtain ⟨deeds, hdeeds, hall⟩ := h u
  exact ⟨deeds, hdeeds, fun r hr => hq r (hall r hr)⟩

/-- A run begins with no deeds, so all that are there after it are its own. -/
theorem of_started {work : Work σ α} (h : Sends q work) {task : Option String} {u : Updater σ} :
    ∀ r, Deed.sent r ∈ (upon work (started task u)).2.deeds → q r := by
  obtain ⟨deeds, hdeeds, hall⟩ := h (started task u)
  intro r hr
  rw [hdeeds] at hr
  exact hall r hr

end Sends

/-- The first thing that the work does to the outside is to send `r`. -/
def Begins (r : Fetch.Request) (work : Work σ α) : Prop :=
  ∀ u : Updater σ, ∃ deeds, (upon work u).2.deeds = u.deeds ++ .sent r :: deeds

namespace Begins

variable {r : Fetch.Request}

theorem bind {work : Work σ α} {next : α → Work σ β} (hw : Begins r work)
    (hn : ∀ a, Sends (fun _ => True) (next a)) : Begins r (work >>= next) := by
  intro u
  obtain ⟨first, hfirst⟩ := hw u
  rw [upon_bind]
  cases h : upon work u with
  | mk result u' =>
    rw [h] at hfirst
    cases result with
    | error e => exact ⟨first, hfirst⟩
    | ok a =>
      obtain ⟨rest, hrest, -⟩ := hn a u'
      exact ⟨first ++ rest, by rw [hrest, hfirst, List.append_assoc, List.cons_append]⟩

theorem outcome {work : Work σ α} (hw : Begins r work) : Begins r (outcome work) := by
  intro u
  rw [upon_outcome]
  exact hw u

theorem sent (r : Fetch.Request) : Begins r (note (.sent r) : Work σ Unit) := fun _ => ⟨[], rfl⟩

end Begins

end Work

end Sinkhole
