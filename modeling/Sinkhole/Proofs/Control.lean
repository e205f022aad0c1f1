import Mathlib.Data.List.Induction
import Sinkhole.Control.Shared

/-! No wake-up is lost.

Whatever order those who use a control take their steps in, `run_orderly` says what
holds at any moment. Who is asleep has registered and was not woken since, for a wake-up
finds everyone who has registered, asleep or not (`wake_heard`); who has left did so when
the flags said so; and a stop stays in force until a reset.

Each fact is kept by every step. What a step is to one waiter is said once, in
`next?_waiter`. What is done to a gate in one go is made of the same steps (`run?_resume`,
`exists_pollAll`). -/
namespace Sinkhole

/-! ### Flags -/

namespace Control

/-- Paused and stopped are never both set. -/
def Apart (c : Control) : Prop := ¬(c.paused = true ∧ c.stopped = true)

theorem reset_apart (c : Control) : c.reset.Apart := by simp [Apart, reset]

theorem resume_apart (c : Control) : c.resume.Apart := by simp [Apart, resume]

theorem Apart.pause {c : Control} (h : c.Apart) : c.pause.Apart := by
  unfold Control.pause
  split
  · rename_i hfree
    simp only [Bool.and_eq_true, Bool.not_eq_true'] at hfree
    simp [Apart, hfree.1]
  · exact h

theorem Apart.stop {c : Control} (h : c.Apart) : c.stop.Apart := by
  unfold Control.stop
  split
  · exact h
  · simp [Apart]

theorem checkpoint_eq_none {c : Control} :
    c.checkpoint = none ↔ c.stopped = false ∧ c.paused = true := by
  unfold checkpoint
  cases c.stopped <;> cases c.paused <;> simp

/-- After a stop a pause does nothing at all. -/
theorem pause_of_stopped {c : Control} (h : c.stopped = true) : c.pause = c := by
  simp [Control.pause, h]

theorem pause_paused {c : Control} (h : c.paused = true) : c.pause.paused = true := by
  unfold Control.pause
  split
  · rfl
  · exact h

end Control

/-! ### One waiter -/

namespace Waiter

/-- A waiter that has registered and was not woken since. -/
inductive Unwoken : Waiter → Prop where
  | registered : Unwoken (.registered false)
  | held : Unwoken (.held false)
  | asleep : Unwoken .asleep

/-- A wake-up finds every waiter that has registered. -/
theorem wake_heard (w : Waiter) : ¬w.wake.Unwoken := by
  intro h
  cases w <;> cases h

theorem left_of_wake {w : Waiter} {a : Leave} (h : w.wake = .left a) : w = .left a := by
  cases w with
  | left b => exact h
  | _ => cases h

variable {c : Control} {w w' : Waiter} {m : Move}

/-- How a waiter comes to a place where it was not woken: it registers, it finds the run paused,
or it falls asleep. -/
theorem Unwoken.cases_step (h : w'.Unwoken) (hstep : w.step? c = some w')
    (hdue : w.move? = some m) :
    (m = .register ∧ w' = .registered false) ∨
      (m = .look ∧ w = .registered false ∧ c.paused = true) ∨ (m = .sleep ∧ w = .held false) := by
  cases w with
  | arriving =>
    cases hdue
    exact .inl ⟨rfl, (Option.some.inj hstep).symm⟩
  | registered woken =>
    cases hdue
    cases hc : c.checkpoint with
    | some answer =>
      rw [step?, hc] at hstep
      cases hstep
      cases h
    | none =>
      rw [step?, hc] at hstep
      cases hstep
      cases h
      exact .inr (.inl ⟨rfl, rfl, (Control.checkpoint_eq_none.mp hc).2⟩)
  | held woken =>
    cases hdue
    cases woken with
    | true =>
      cases hstep
      cases h
    | false => exact .inr (.inr ⟨rfl, rfl⟩)
  | roused =>
    cases hstep
    cases h
  | asleep | left => cases hdue

/-- Nobody leaves but with what the flags say at that moment. -/
theorem left_of_step {a : Leave} (hstep : w.step? c = some (.left a)) (hdue : w.move? = some m) :
    m = .look ∧ c.checkpoint = some a := by
  cases w with
  | registered woken =>
    cases hdue
    cases hc : c.checkpoint with
    | some answer =>
      rw [step?, hc] at hstep
      cases hstep
      exact ⟨rfl, rfl⟩
    | none =>
      rw [step?, hc] at hstep
      cases hstep
  | held woken => cases woken <;> cases hstep
  | _ => cases hstep

end Waiter

/-! ### One step -/

namespace Crowd

open Control (Event)

variable {x y : Crowd} {e : Event} {es : List Event} {i : Nat}

theorem next?_move {m : Waiter.Move} (h : x.next? (.waiter i m) = some y) :
    ∃ w w', x.gate.waiters[i]? = some w ∧ w.step? x.gate.control = some w' ∧
      w.move? = some m ∧
      y = { x with gate := { x.gate with waiters := x.gate.waiters.set i w' } } := by
  obtain ⟨w, hw, h⟩ := Option.bind_eq_some_iff.mp h
  obtain ⟨w', hw', h⟩ := Option.bind_eq_some_iff.mp h
  split at h
  · rename_i hdue
    exact ⟨w, w', hw, hw', hdue, (Option.some.inj h).symm⟩
  · cases h

theorem next?_wake (h : x.next? .wake = some y) : y.gate = x.gate.wakeAll := by
  simp only [next?] at h
  split at h
  · cases h
  · cases h
    rfl

/-- What a step is to one waiter, who comes to stand at `w'`. -/
inductive Turn (x : Crowd) (i : Nat) (w' : Waiter) : Event → Prop where
  | spared (e : Event) (same : x.gate.waiters[i]? = some w') (silent : e ≠ .wake)
      (other : ∀ m, e ≠ .waiter i m) : Turn x i w' e
  | woken (w : Waiter) (was : x.gate.waiters[i]? = some w) (now : w' = w.wake) : Turn x i w' .wake
  | comes (now : w' = .arriving) : Turn x i w' .arrive
  | moves (w : Waiter) (m : Waiter.Move) (was : x.gate.waiters[i]? = some w)
      (step : w.step? x.gate.control = some w')
      (due : w.move? = some m) : Turn x i w' (.waiter i m)

theorem next?_waiter {w' : Waiter} (h : x.next? e = some y) (hi : y.gate.waiters[i]? = some w') :
    Turn x i w' e := by
  cases e with
  | pause | reset | resume | stop =>
    cases h
    exact .spared _ hi nofun nofun
  | wake =>
    rw [next?_wake h, Gate.wakeAll, List.getElem?_map] at hi
    obtain ⟨w, hw, hwake⟩ := Option.map_eq_some_iff.mp hi
    exact .woken w hw hwake.symm
  | arrive =>
    cases h
    by_cases hlt : i < x.gate.waiters.length
    · refine .spared _ ?_ nofun nofun
      rwa [← List.getElem?_append_left hlt]
    · have hnew : w' ∈ [Waiter.arriving] := by
        apply List.mem_of_getElem?
        rwa [← List.getElem?_append_right (Nat.le_of_not_lt hlt)]
      exact .comes (List.mem_singleton.mp hnew)
  | waiter j m =>
    obtain ⟨w, v, hw, hstep, hdue, rfl⟩ := next?_move h
    by_cases hij : j = i
    · subst hij
      rw [List.getElem?_set_self (List.getElem?_eq_some_iff.mp hw).1] at hi
      cases hi
      exact .moves w m hw hstep hdue
    · rw [List.getElem?_set_ne hij] at hi
      exact .spared _ hi nofun fun m h => hij (Event.waiter.inj h).1

theorem next?_control (h : x.next? e = some y) : y.gate.control = x.gate.control ∨
    y.gate.control = x.gate.control.pause ∨ y.gate.control = x.gate.control.reset ∨
    y.gate.control = x.gate.control.resume ∨ y.gate.control = x.gate.control.stop := by
  cases e with
  | wake => exact .inl (by rw [next?_wake h]; rfl)
  | waiter j m =>
    obtain ⟨w, v, -, -, -, rfl⟩ := next?_move h
    exact .inl rfl
  | _ =>
    cases h
    simp [Gate.pause, Gate.reset, Gate.arrive]

/-- But for a reset, what was stopped stays stopped. -/
theorem next?_stopped (h : x.next? e = some y) (hx : x.gate.control.stopped = true)
    (hreset : e ≠ .reset) : y.gate.control.stopped = true := by
  cases e with
  | reset => exact absurd rfl hreset
  | wake => rwa [next?_wake h]
  | waiter j m =>
    obtain ⟨w, v, -, -, -, rfl⟩ := next?_move h
    exact hx
  | pause =>
    cases h
    exact (Control.pause_stopped _).trans hx
  | stop =>
    cases h
    exact Control.stop_stopped _
  | resume | arrive =>
    cases h
    exact hx

/-- Why a waiter may sleep: the run is paused, or a wake-up is on its way, or the pause was
taken back by a reset, which wakes nobody. -/
def Lulled (x : Crowd) (since : List Event) : Prop :=
  x.gate.control.paused = true ∨ 0 < x.waking ∨ .reset ∈ since

theorem Lulled.next {since : List Event} (hx : x.Lulled since) (h : x.next? e = some y)
    (hwake : e ≠ .wake) : y.Lulled (since ++ [e]) := by
  have hsince : .reset ∈ since → .reset ∈ since ++ [e] := List.mem_append_left _
  cases e with
  | reset => exact .inr (.inr (List.mem_append_right _ (List.mem_singleton_self _)))
  | resume | stop =>
    cases h
    exact .inr (.inl (Nat.succ_pos _))
  | wake => exact absurd rfl hwake
  | pause =>
    cases h
    exact hx.imp Control.pause_paused (.imp_right hsince)
  | arrive =>
    cases h
    exact hx.imp_right (.imp_right hsince)
  | waiter j m =>
    obtain ⟨w, v, -, -, -, rfl⟩ := next?_move h
    exact hx.imp_right (.imp_right hsince)

/-! ### Any number of steps -/

theorem run?_append (x : Crowd) (es es' : List Event) :
    x.run? (es ++ es') = (x.run? es).bind (run? · es') := by
  induction es generalizing x with
  | nil => rfl
  | cons e es ih =>
    simp only [List.cons_append, run?]
    cases x.next? e with
    | none => rfl
    | some y => exact ih y

theorem run?_concat {z : Crowd} (h : x.run? (es ++ [e]) = some z) :
    ∃ y, x.run? es = some y ∧ y.next? e = some z := by
  rw [run?_append] at h
  obtain ⟨y, hy, h⟩ := Option.bind_eq_some_iff.mp h
  obtain ⟨z', hz, h⟩ := Option.bind_eq_some_iff.mp h
  exact ⟨y, hy, by rw [hz, ← h]; rfl⟩

theorem run?_stopped (h : x.run? es = some y) (hx : x.gate.control.stopped = true)
    (hreset : .reset ∉ es) : y.gate.control.stopped = true := by
  induction es generalizing x with
  | nil =>
    cases h
    exact hx
  | cons e es ih =>
    obtain ⟨x', hx', h⟩ := Option.bind_eq_some_iff.mp h
    have hne : e ≠ .reset := fun he => hreset (he ▸ List.mem_cons_self)
    exact ih h (next?_stopped hx' hx hne) fun hmem => hreset (List.mem_cons_of_mem _ hmem)

theorem run?_apart (h : x.run? es = some y) (hx : x.gate.control.Apart) :
    y.gate.control.Apart := by
  induction es generalizing x with
  | nil =>
    cases h
    exact hx
  | cons e es ih =>
    obtain ⟨x', hx', h⟩ := Option.bind_eq_some_iff.mp h
    apply ih h
    rcases next?_control hx' with he | he | he | he | he <;> rw [he]
    · exact hx
    · exact hx.pause
    · exact Control.reset_apart _
    · exact Control.resume_apart _
    · exact hx.stop

/-! ### Calls as a whole -/

/-- A resume that nothing comes between is the two steps it is made of. -/
theorem run?_resume (x : Crowd) :
    x.run? [.resume, .wake] = some { x with gate := x.gate.resume } := by
  simp [run?, next?, Gate.resume, Gate.wakeAll]

theorem run?_stop (x : Crowd) :
    x.run? [.stop, .wake] = some { x with gate := x.gate.stop } := by
  simp [run?, next?, Gate.stop, Gate.wakeAll]

/-- A crowd in which one waiter has moved to another place. -/
def place (x : Crowd) (i : Nat) (w : Waiter) : Crowd :=
  { x with gate := { x.gate with waiters := x.gate.waiters.set i w } }

theorem place_self {w : Waiter} (hi : x.gate.waiters[i]? = some w) : x.place i w = x := by
  obtain ⟨hlt, rfl⟩ := List.getElem?_eq_some_iff.mp hi
  simp [place]

/-- What a waiter does next on its own is one of its moves. -/
theorem exists_next {w : Waiter} (hlt : i < x.gate.waiters.length)
    (h : ∃ es, x.run? es = some (x.place i w)) :
    ∃ es, x.run? es = some (x.place i (w.next x.gate.control)) := by
  obtain ⟨es, hes⟩ := h
  cases hstep : w.step? x.gate.control with
  | none => exact ⟨es, by simp [hes, Waiter.next, hstep]⟩
  | some w' =>
    obtain ⟨m, hm⟩ : ∃ m, w.move? = some m := by
      cases w <;> first | exact ⟨_, rfl⟩ | cases hstep
    have hmove : (x.place i w).next? (.waiter i m) = some (x.place i w') := by
      simp [next?, place, hlt, hstep, hm]
    refine ⟨es ++ [.waiter i m], ?_⟩
    simp [run?_append, hes, run?, hmove, Waiter.next, hstep]

theorem exists_poll {w : Waiter} (hi : x.gate.waiters[i]? = some w) :
    ∃ es, x.run? es = some (x.place i (w.poll x.gate.control)) := by
  have hlt := (List.getElem?_eq_some_iff.mp hi).1
  apply exists_next hlt
  apply exists_next hlt
  apply exists_next hlt
  apply exists_next hlt
  exact ⟨[], by rw [place_self hi]; rfl⟩

/-- When some have gone as far as they can get, the others do so one after the other. -/
theorem exists_pollRest (front back : List Waiter) (hx : x.gate.waiters = front ++ back) :
    ∃ es, x.run? es = some { x with gate := { x.gate with
      waiters := front ++ back.map (.poll x.gate.control) } } := by
  induction back generalizing x front with
  | nil => exact ⟨[], by simp [run?, ← hx]⟩
  | cons w back ih =>
    have hmet : x.gate.waiters[front.length]? = some w := by simp [hx]
    obtain ⟨es, hes⟩ := exists_poll hmet
    have hnow : (x.place front.length (w.poll x.gate.control)).gate.waiters =
        (front ++ [w.poll x.gate.control]) ++ back := by simp [place, hx]
    obtain ⟨es', hes'⟩ := ih _ hnow
    refine ⟨es ++ es', ?_⟩
    rw [run?_append, hes, Option.bind_some, hes']
    simp [place]

theorem exists_pollAll (x : Crowd) :
    ∃ es, x.run? es = some { x with gate := x.gate.pollAll } := exists_pollRest [] _ rfl

/-! ### At any moment -/

/-- A waiter registered, has not done so again, and no wake-up came: `since` is what happened
after it registered. -/
def Unheard (es : List Event) (i : Nat) (since : List Event) : Prop :=
  ∃ before, es = before ++ .waiter i .register :: since ∧
    .waiter i .register ∉ since ∧ .wake ∉ since

theorem Unheard.append {since : List Event} (h : Unheard es i since) (hwake : e ≠ .wake)
    (hreg : e ≠ .waiter i .register) : Unheard (es ++ [e]) i (since ++ [e]) := by
  obtain ⟨before, rfl, hnew, hsilent⟩ := h
  exact ⟨before, by simp, by simp [hnew, hreg.symm], by simp [hsilent, hwake.symm]⟩

theorem unheard_register (es : List Event) (i : Nat) :
    Unheard (es ++ [.waiter i .register]) i [] :=
  ⟨es, rfl, List.not_mem_nil, List.not_mem_nil⟩

/-- Waiters that were not woken since they registered: no wake-up came since, and those who
have looked at the flags have a reason to sleep. -/
theorem run?_unwoken {w : Waiter} (h : run? {} es = some x) (hi : x.gate.waiters[i]? = some w)
    (hw : w.Unwoken) :
    ∃ since, Unheard es i since ∧ (w ≠ .registered false → x.Lulled since) := by
  induction es using List.reverseRecOn generalizing x w with
  | nil =>
    cases h
    cases hi
  | append_singleton es e ih =>
    obtain ⟨x', hx', hnext⟩ := run?_concat h
    cases next?_waiter hnext hi with
    | spared e same silent other =>
      obtain ⟨since, hsince, hlull⟩ := ih hx' same hw
      exact ⟨since ++ [e], hsince.append silent (other _),
        fun hne => (hlull hne).next hnext silent⟩
    | woken v was now => exact absurd (now ▸ hw) v.wake_heard
    | comes now =>
      rw [now] at hw
      cases hw
    | moves v m was step due =>
      rcases hw.cases_step step due with ⟨rfl, rfl⟩ | ⟨rfl, rfl, hpaused⟩ | ⟨rfl, rfl⟩
      · exact ⟨[], unheard_register es i, fun hne => absurd rfl hne⟩
      · obtain ⟨since, hsince, -⟩ := ih hx' was .registered
        have hlull : x'.Lulled since := .inl hpaused
        exact ⟨since ++ [_], hsince.append nofun nofun, fun _ => hlull.next hnext nofun⟩
      · obtain ⟨since, hsince, hlull⟩ := ih hx' was .held
        exact ⟨since ++ [_], hsince.append nofun nofun, fun _ => (hlull nofun).next hnext nofun⟩

/-- A waiter looked at the flags when they said `a`, and has done nothing since. -/
def Answered (es : List Event) (i : Nat) (a : Leave) : Prop :=
  ∃ before since x, es = before ++ .waiter i .look :: since ∧ (∀ m, .waiter i m ∉ since) ∧
    run? {} before = some x ∧ x.gate.control.checkpoint = some a

theorem Answered.append {a : Leave} (h : Answered es i a) (hother : ∀ m, e ≠ .waiter i m) :
    Answered (es ++ [e]) i a := by
  obtain ⟨before, since, x, rfl, hdone, hx, ha⟩ := h
  exact ⟨before, since ++ [e], x, by simp, fun m => by simp [hdone m, (hother m).symm], hx, ha⟩

theorem run?_left {a : Leave} (h : run? {} es = some x)
    (hi : x.gate.waiters[i]? = some (.left a)) : Answered es i a := by
  induction es using List.reverseRecOn generalizing x with
  | nil =>
    cases h
    cases hi
  | append_singleton es e ih =>
    obtain ⟨x', hx', hnext⟩ := run?_concat h
    cases next?_waiter hnext hi with
    | spared e same silent other => exact (ih hx' same).append other
    | woken v was now =>
      rw [Waiter.left_of_wake now.symm] at was
      exact (ih hx' was).append nofun
    | comes now => cases now
    | moves v m was step due =>
      obtain ⟨rfl, ha⟩ := Waiter.left_of_step step due
      exact ⟨es, [], x', rfl, fun m => List.not_mem_nil, hx', ha⟩

/-- What holds at a control at any moment, after the steps `es`. -/
structure Orderly (es : List Event) (x : Crowd) : Prop where
  apart : ¬(x.gate.control.paused = true ∧ x.gate.control.stopped = true)
  /-- Since a waiter that is asleep has registered, no resume and no stop is complete; and
  it sleeps in a pause, or before a wake-up, or because a reset has woken nobody. -/
  asleep : ∀ i, x.gate.waiters[i]? = some .asleep →
    ∃ before since, es = before ++ .waiter i .register :: since ∧
      .waiter i .register ∉ since ∧ .wake ∉ since ∧
      (x.gate.control.paused = true ∨ 0 < x.waking ∨ .reset ∈ since)
  /-- A waiter that has left in order to halt last looked when the run was stopped. -/
  halt : ∀ i, x.gate.waiters[i]? = some (.left .halt) →
    ∃ before since y, es = before ++ .waiter i .look :: since ∧ (∀ m, .waiter i m ∉ since) ∧
      run? {} before = some y ∧ y.gate.control.stopped = true
  go : ∀ i, x.gate.waiters[i]? = some (.left .go) →
    ∃ before since y, es = before ++ .waiter i .look :: since ∧ (∀ m, .waiter i m ∉ since) ∧
      run? {} before = some y ∧ y.gate.control.stopped = false ∧ y.gate.control.paused = false
  /-- After a stop, and before a reset, a pause changes nothing. -/
  final : ∀ before since, es = before ++ .stop :: since → .reset ∉ since →
    x.gate.control.stopped = true ∧ x.next? .pause = some x

/-- **Whoever takes whichever step, no wake-up is lost, nobody leaves but as the flags say, and a
stop stays in force.** -/
theorem run_orderly (h : run? {} es = some x) : Orderly es x where
  apart := run?_apart h (by simp [Control.Apart])
  asleep i hi := by
    obtain ⟨since, ⟨before, hes, hnew, hsilent⟩, hlull⟩ := run?_unwoken h hi .asleep
    exact ⟨before, since, hes, hnew, hsilent, hlull nofun⟩
  halt i hi := by
    obtain ⟨before, since, y, hes, hdone, hy, ha⟩ := run?_left h hi
    exact ⟨before, since, y, hes, hdone, hy, Control.checkpoint_eq_halt.mp ha⟩
  go i hi := by
    obtain ⟨before, since, y, hes, hdone, hy, ha⟩ := run?_left h hi
    exact ⟨before, since, y, hes, hdone, hy, Control.checkpoint_eq_go.mp ha⟩
  final before since hes hreset := by
    rw [hes, run?_append] at h
    obtain ⟨y, -, h⟩ := Option.bind_eq_some_iff.mp h
    obtain ⟨y', hy', h⟩ := Option.bind_eq_some_iff.mp h
    cases hy'
    have hstopped := run?_stopped h (Control.stop_stopped _) hreset
    refine ⟨hstopped, ?_⟩
    show some { x with gate := { x.gate with control := x.gate.control.pause } } = some x
    rw [Control.pause_of_stopped hstopped]

/-- Two wait in a pause. A resume is under way when the run is paused once more, so the first
falls asleep again, and is woken by a stop. -/
def roughNight : List Event :=
  [.pause, .arrive, .arrive, .waiter 0 .register, .waiter 0 .look, .waiter 1 .register, .resume,
    .waiter 0 .sleep, .waiter 1 .look, .pause, .wake, .waiter 0 .rise, .waiter 0 .register,
    .waiter 0 .look, .waiter 0 .sleep, .stop, .pause]

theorem run_orderly_roughNight : ∃ x, run? {} roughNight = some x ∧
    x.gate.waiters = [.asleep, .left .go] ∧ x.gate.control = ⟨false, true⟩ ∧
    Orderly roughNight x :=
  ⟨_, rfl, rfl, rfl, run_orderly rfl⟩

end Crowd

end Sinkhole
