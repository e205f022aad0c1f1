import Sinkhole.Proofs.Update.Adopted
import Sinkhole.Proofs.Update.Calm

/-! Attempts at other runs while a run is under way.

A session is all of a run between its admission and the moment it lets the next one in.
`Beset` tells how a session goes when other runs are attempted between any two of its
steps; what comes in while the world is asked, or while a content is read, is up to the
world. No step of a session gives up that a run is under way, so every attempt is
refused, and one that is refused does nothing. So the session comes to what it would have
come to without any attempts (`beset_undisturbed`). -/
namespace Sinkhole

variable {σ : Type}

/-! ### Runs by what they are -/

namespace Run

/-- What a run that does not fail comes to. -/
abbrev Result : Run → Type
  | all => Update.Report
  | one _ => Update.Report
  | check => List Update.Finding

/-- The work of a run. -/
def work (w : World σ) (s : Update.Setup) : (run : Run) → Work σ run.Result
  | all => Update.runAll w s
  | one id => Update.runOne w s id
  | check => Update.runCheck w s

/-- What a run tells the meter that it is; a check has no name. -/
def taskOf (task : Option String) : Run → Option String
  | check => none
  | _ => task

/-- A run, if it is admitted. -/
def perform (w : World σ) (s : Update.Setup) (task : Option String) :
    (run : Run) → Updater σ → Except Error run.Result × Updater σ
  | all, u => Update.updateAll w s task u
  | one id, u => Update.updateOne w s id task u
  | check, u => Update.check w s u

variable (w : World σ) (s : Update.Setup) (task : Option String) (run : Run)

theorem perform_eq (u : Updater σ) :
    run.perform w s task u = Work.supervised (run.taskOf task) (run.work w s) u := by
  cases run <;> rfl

/-- A run that is attempted while another is under way is refused, and that is all. -/
theorem perform_refused {u : Updater σ} (hu : u.running = true) :
    run.perform w s task u = (.error .alreadyRunning, u) := by
  rw [perform_eq, Work.supervised, Updater.enter, if_pos hu]

theorem work_calmed : Work.Calmed (run.work w s) (run.work w.calm s) := by
  cases run with
  | all => exact Update.runAll_calmed w s
  | one id => exact Update.runOne_calmed w s id
  | check => exact Update.runCheck_calmed w s

end Run

/-! ### Sessions -/

namespace Work

variable {α β : Type}

/-- A fresh control, and nothing done yet. -/
def reset : Work σ Unit :=
  modify fun u => { u with control := u.control.reset, deeds := [], refused := [] }

/-- Work that the meter shows. -/
def shown (task : Option String) (work : Work σ α) : Work σ α := do
  onProgress (·.begin task)
  let result ← outcome work
  onProgress Progress.finish
  match result with
  | .ok a => return a
  | .error e => throw e

/-- What a run does between its admission and its end. -/
def session (task : Option String) (work : Work σ α) : Work σ α := do
  reset
  shown task work

theorem upon_session (task : Option String) (work : Work σ α) (u : Updater σ) :
    upon (session task work) u = upon (shown task work)
      { u with control := u.control.reset, deeds := [], refused := [] } := rfl

theorem upon_shown (task : Option String) (work : Work σ α) (u : Updater σ) :
    upon (shown task work) u =
      let v := { u with progress := u.progress.begin task }
      ((upon work v).1, { (upon work v).2 with progress := (upon work v).2.progress.finish }) := by
  rw [shown, upon_bind_of_ok (upon_onProgress _ u), upon_bind_of_ok (upon_outcome _ _),
    upon_bind_of_ok (upon_onProgress _ _)]
  dsimp only
  cases (upon work { u with progress := u.progress.begin task }).1 <;> rfl

/-- A run that is admitted is a session, and when that is over the next run is let in. -/
theorem supervised_session (task : Option String) (work : Work σ α) {u : Updater σ}
    (hu : u.running = false) :
    supervised task work u =
      let ended := upon (session task work) { u with running := true }
      (ended.1, { ended.2 with running := false }) := by
  rw [upon_session, upon_shown, supervised, Updater.enter, hu]
  rfl

theorem shown_calmed (task : Option String) {work work' : Work σ α} (h : Calmed work work') :
    Calmed (shown task work) (shown task work') := by
  refine .bind (.onProgress _) fun _ => .bind h.outcome fun result => .bind (.onProgress _)
    fun _ => ?_
  cases result with
  | ok a => exact .pure a
  | error e => exact .throw e

/-! ### Sessions with attempts in between -/

/-- The steps that sessions are made of. -/
inductive Step : {α : Type} → Work σ α → Prop where
  | quiet {α : Type} {work : Work σ α} (quiet : Quiet work) : Step work
  | reset : Step reset
  | look : Step (get : Work σ (Updater σ))
  | observe {α : Type} (ask : σ → Observed σ α) : Step (observe ask)
  | takeIn (s : Update.Setup) (target : Intake.Target) (opened : Opened) :
      Step (Update.takeIn s target opened)

/-- The work goes on from an updater with attempts at other runs between its steps: the answers
that were given to those, what comes of the work, and the updater after it. -/
inductive Beset : {α : Type} → Work σ α → Updater σ → List (Except Error Unit) →
    Except Error α → Updater σ → Prop where
  | step {α : Type} {work : Work σ α} {u : Updater σ} (step : Step work) :
      Beset work u [] (upon work u).1 (upon work u).2
  | attempt {α : Type} {work : Work σ α} {u u' : Updater σ} {answers : List (Except Error Unit)}
      {r : Except Error α} (w : World σ) (s : Update.Setup) (task : Option String) (run : Run)
      (rest : Beset work (run.perform w s task u).2 answers r u') :
      Beset work u ((run.perform w s task u).1.map (fun _ => ()) :: answers) r u'
  | bind {α β : Type} {work : Work σ α} {next : α → Work σ β} {u u₁ u' : Updater σ}
      {answers answers' : List (Except Error Unit)} {a : α} {r : Except Error β}
      (first : Beset work u answers (.ok a) u₁) (rest : Beset (next a) u₁ answers' r u') :
      Beset (work >>= next) u (answers ++ answers') r u'
  | fail {α β : Type} {work : Work σ α} {next : α → Work σ β} {u u' : Updater σ}
      {answers : List (Except Error Unit)} {e : Error}
      (first : Beset work u answers (.error e) u') :
      Beset (work >>= next) u answers (.error e) u'
  | outcome {α : Type} {work : Work σ α} {u u' : Updater σ}
      {answers : List (Except Error Unit)} {r : Except Error α}
      (inner : Beset work u answers r u') : Beset (outcome work) u answers (.ok r) u'

section

variable {α : Type} {work : Work σ α} {u u' : Updater σ} {answers : List (Except Error Unit)}
  {r : Except Error α}

/-- No step gives up that a run is under way. -/
theorem Step.running (h : Step work) (u : Updater σ) : (upon work u).2.running = u.running := by
  cases h with
  | quiet quiet => cases quiet <;> rfl
  | reset => rfl
  | look => rfl
  | observe ask =>
    rw [upon_observe]
    exact Updater.hearAll_running _ _
  | takeIn s target opened =>
    rw [Update.upon_takeIn]
    dsimp only
    rw [Update.foldl_heard]
    exact Updater.hearAll_running _ _

/-- While a run is under way, attempts at others are refused and change nothing. -/
theorem Beset.undisturbed (h : Beset work u answers r u') (hu : u.running = true) :
    (∀ answer ∈ answers, answer = .error .alreadyRunning) ∧ upon work u = (r, u') ∧
      u'.running = true := by
  induction h with
  | step step => exact ⟨fun _ h => absurd h List.not_mem_nil, rfl, (step.running _).trans hu⟩
  | attempt w s task run rest ih =>
    rw [Run.perform_refused w s task run hu] at ih ⊢
    obtain ⟨hanswers, hrest⟩ := ih hu
    exact ⟨List.forall_mem_cons.mpr ⟨rfl, hanswers⟩, hrest⟩
  | bind first rest ihf ihr =>
    obtain ⟨hfirst, hwork, hu₁⟩ := ihf hu
    obtain ⟨hrest, hnext, hu'⟩ := ihr hu₁
    refine ⟨fun answer ha => ?_, (upon_bind_of_ok hwork).trans hnext, hu'⟩
    exact (List.mem_append.mp ha).elim (hfirst answer) (hrest answer)
  | fail first ih =>
    obtain ⟨hanswers, hwork, hu'⟩ := ih hu
    exact ⟨hanswers, upon_bind_of_error hwork, hu'⟩
  | outcome inner ih =>
    obtain ⟨hanswers, hwork, hu'⟩ := ih hu
    exact ⟨hanswers, by rw [upon_outcome, hwork], hu'⟩

end

section Exposed

variable {α β : Type} (w : World σ) (s : Update.Setup) (task : Option String) (run : Run)

/-- The work goes on as it would, and there are attempts at other runs on the way. -/
def Exposed (work : Work σ α) : Prop :=
  ∀ u : Updater σ, u.running = true →
    ∃ answers, answers ≠ [] ∧ Beset work u answers (upon work u).1 (upon work u).2

include w s task run in
/-- A run can be attempted before any step. -/
theorem Step.exposed {work : Work σ α} (h : Step work) : Exposed work := by
  intro u hu
  have hrest : Beset work (run.perform w s task u).2 [] (upon work u).1 (upon work u).2 := by
    rw [Run.perform_refused w s task run hu]
    exact .step h
  exact ⟨_, List.cons_ne_nil _ _, .attempt w s task run hrest⟩

theorem Exposed.bind {work : Work σ α} {next : α → Work σ β} (hw : Exposed work)
    (hn : ∀ a, Exposed (next a)) : Exposed (work >>= next) := by
  intro u hu
  obtain ⟨answers, hne, hfirst⟩ := hw u hu
  obtain ⟨-, -, hu₁⟩ := hfirst.undisturbed hu
  rw [upon_bind]
  cases h : upon work u with
  | mk r u₁ =>
    rw [h] at hfirst hu₁
    cases r with
    | ok a =>
      obtain ⟨answers', -, hrest⟩ := hn a u₁ hu₁
      exact ⟨answers ++ answers', List.append_ne_nil_of_left_ne_nil hne _, hfirst.bind hrest⟩
    | error e => exact ⟨answers, hne, hfirst.fail⟩

include w s task run in
/-- All that is calmed is made of steps, and a run can be attempted before each of them. -/
theorem Calmed.exposed {work work' : Work σ α} (h : Calmed work work') : Exposed work := by
  induction h with
  | quiet quiet => exact Step.exposed w s task run (.quiet quiet)
  | look rest ih => exact .bind (Step.exposed w s task run .look) ih
  | observe calm => exact Step.exposed w s task run (.observe _)
  | takeIn w' s' target content =>
    refine .bind (.bind (Step.exposed w s task run (.observe _)) fun answer => ?_) fun opened =>
      Step.exposed w s task run (.takeIn s' target opened)
    cases answer with
    | ok opened => exact Step.exposed w s task run (.quiet (.pure opened))
    | error reason => exact Step.exposed w s task run (.quiet (.throw _))
  | bind first rest ihf ihr => exact ihf.bind ihr
  | outcome inner ih =>
    intro u hu
    obtain ⟨answers, hne, hinner⟩ := ih u hu
    rw [upon_outcome]
    exact ⟨answers, hne, hinner.outcome⟩

end Exposed

end Work

/-! ### Whole runs -/

namespace Run

open Work (Beset session upon)

/-- A session comes to the same as one of a run in the calm world. -/
theorem perform_calm (w : World σ) (s : Update.Setup) (task : Option String) (run : Run)
    {u : Updater σ} (hu : u.running = false) :
    let ended := upon (session (run.taskOf task) (run.work w s)) { u with running := true }
    run.perform w.calm s task u = (ended.1, { ended.2 with refused := [], running := false }) ∧
      ended.2.Guarded := by
  have hagree := (Work.shown_calmed (run.taskOf task) (run.work_calmed w s)).agree
    { u with running := true, control := u.control.reset, deeds := [], refused := [] }
    ⟨rfl, fun _ h => absurd h List.not_mem_nil⟩
  have hsame : upon (session (run.taskOf task) (run.work w.calm s)) { u with running := true } =
      ((upon (session (run.taskOf task) (run.work w s)) { u with running := true }).1,
        (upon (session (run.taskOf task) (run.work w s)) { u with running := true }).2.calm) :=
    hagree.1
  rw [perform_eq, Work.supervised_session _ _ hu, hsame]
  exact ⟨rfl, hagree.2⟩

/-- **Attempts at other runs do not disturb a run.** Wherever in it and however often other runs
are attempted, between its steps or while it waits for the world: every one of them is refused
because a run is under way, and the run comes to what it comes to without any, with the same
store, control, meter and deeds. However it ends, the next run is let in. -/
theorem beset_undisturbed (w : World σ) (s : Update.Setup) (task : Option String) (run : Run)
    {u u' : Updater σ} {answers : List (Except Error Unit)} {r : Except Error run.Result}
    (hu : u.running = false)
    (h : Beset (session (run.taskOf task) (run.work w s)) { u with running := true } answers r u') :
    (∀ answer ∈ answers, answer = .error .alreadyRunning) ∧
      (∀ x ∈ u'.refused, x.2 = .alreadyRunning) ∧
      run.perform w.calm s task u = (r, { u' with refused := [], running := false }) ∧
      ∃ next, Updater.enter { u' with running := false } = .ok next := by
  obtain ⟨hanswers, hsession, -⟩ := h.undisturbed rfl
  obtain ⟨hcalm, hguarded⟩ := perform_calm w s task run hu
  rw [hsession] at hcalm hguarded
  exact ⟨hanswers, hguarded.refused, hcalm, _, rfl⟩

open Update (shelf plain atDesk assortedReport) in
/-- The files of `shelf`, with someone who tries to start other runs while they are looked at,
opened and read. -/
def pestered : World Unit :=
  { shelf with
    facts := fun path x => { shelf.facts path x with signals := [.attempt .check, .pause] }
    openFile := fun _ _ =>
      { answer := .ok
          { reading := { bytes := [97, 46, 98, 10] }, meanwhile := [(0, .attempt .all)] }
        signals := [.attempt (.one 2)]
        world := () } }

open Update (plain atDesk assortedReport) in
/-- A run over the sources of `assorted`, with an attempt before each of its steps and more of
them while files are read. -/
theorem beset_undisturbed_pestered : ∃ answers u', answers ≠ [] ∧
    Beset (session none (work pestered plain all)) { atDesk with running := true } answers
      (.ok assortedReport) u' ∧
    u'.refused.map Prod.fst = [.check, .one 2, .all, .check, .check] ∧
    (∀ answer ∈ answers, answer = .error .alreadyRunning) ∧
    (∀ x ∈ u'.refused, x.2 = .alreadyRunning) ∧
    perform pestered.calm plain none all atDesk =
      (.ok assortedReport, { u' with refused := [], running := false }) ∧
    ∃ next, Updater.enter { u' with running := false } = .ok next := by
  have hreport : (upon (session none (work pestered plain all))
      { atDesk with running := true }).1 = .ok assortedReport := by decide +kernel
  have hexposed := (Work.Step.exposed pestered plain none .check .reset).bind fun _ =>
    (Work.shown_calmed none (work_calmed pestered plain all)).exposed pestered plain none .check
  obtain ⟨answers, hne, hbeset⟩ := hexposed { atDesk with running := true } rfl
  change Beset (session none (work pestered plain all)) _ _ (upon (session _ _) _).1 _ at hbeset
  rw [hreport] at hbeset
  exact ⟨answers, _, hne, hbeset, by decide +kernel,
    beset_undisturbed pestered plain none all rfl hbeset⟩

end Run

end Sinkhole
