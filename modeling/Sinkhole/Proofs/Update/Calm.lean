import Sinkhole.Proofs.Update.All
import Sinkhole.Proofs.Update.One
import Sinkhole.Update.Check

/-! Runs with no attempts at other runs in between.

A calm world answers as the one it is made of, and lets in what that lets in, but for
attempts at other runs. A part of a run is `Calmed` to the same part in a calm world; both
are made alike, step by step, so whatever is made of calmed parts comes to the same in
both worlds and leaves the same behind. Only the list of attempts that were refused is
empty in one of them: while a run is under way, an attempt at another does nothing but be
refused. -/
namespace Sinkhole

variable {σ : Type}

/-! ### Calm worlds -/

def Signal.isAttempt : Signal → Bool
  | attempt _ => true
  | _ => false

def Opened.calm (o : Opened) : Opened :=
  { o with meanwhile := o.meanwhile.filter (!·.2.isAttempt) }

def Observed.calm {α : Type} (o : Observed σ α) : Observed σ α :=
  { o with signals := o.signals.filter (!·.isAttempt) }

/-- Nothing comes in while what was opened is read, either. -/
def Observed.calmOpened (o : Observed σ (Except String Opened)) :
    Observed σ (Except String Opened) :=
  { o.calm with answer := o.answer.map Opened.calm }

/-- The world without attempts at other runs. -/
def World.calm (w : World σ) : World σ where
  facts path x := (w.facts path x).calm
  openFile path x := (w.openFile path x).calmOpened
  openBody bytes x := (w.openBody bytes x).calmOpened
  exchange r x := (w.exchange r x).calm
  resolves := w.resolves
  turn := w.turn

namespace Updater

/-- The updater without the attempts that were refused. -/
def calm (u : Updater σ) : Updater σ := { u with refused := [] }

/-- A run is under way, and all attempts at others were refused for that. -/
structure Guarded (u : Updater σ) : Prop where
  running : u.running = true
  refused : ∀ x ∈ u.refused, x.2 = Error.alreadyRunning

/-- An attempt is refused and leaves no trace but that. -/
theorem hear_attempt {u : Updater σ} (hu : u.running = true) (run : Run) :
    u.hear (.attempt run) = { u with refused := u.refused ++ [(run, .alreadyRunning)] } := by
  unfold hear enter
  rw [if_pos hu]

theorem Guarded.hear {u : Updater σ} (h : u.Guarded) (x : Signal) : (u.hear x).Guarded := by
  cases x with
  | stop => exact ⟨h.running, h.refused⟩
  | pause => exact ⟨h.running, h.refused⟩
  | interrupt => exact ⟨h.running, h.refused⟩
  | attempt run =>
    rw [hear_attempt h.running]
    refine ⟨h.running, fun x hx => ?_⟩
    rcases List.mem_append.mp hx with hold | hnew
    · exact h.refused x hold
    · rw [List.mem_singleton.mp hnew]

/-- What is not an attempt does the same whatever was refused. -/
theorem hear_calm {u : Updater σ} {x : Signal} (hx : x.isAttempt = false) :
    u.calm.hear x = (u.hear x).calm := by
  cases x with
  | stop => rfl
  | pause => rfl
  | interrupt => rfl
  | attempt run => cases hx

theorem hearAll_calm {u : Updater σ} (hu : u.Guarded) (signals : List Signal) :
    (signals.filter (!·.isAttempt)).foldl hear u.calm = (signals.foldl hear u).calm ∧
      (signals.foldl hear u).Guarded := by
  induction signals generalizing u with
  | nil => exact ⟨rfl, hu⟩
  | cons x signals ih =>
    have hrest := ih (hu.hear x)
    refine ⟨?_, hrest.2⟩
    rw [List.foldl_cons, ← hrest.1]
    cases hx : x.isAttempt with
    | true =>
      cases x with
      | attempt run =>
        rw [List.filter_cons_of_neg (by simp [hx]), hear_attempt hu.running]
        rfl
      | _ => cases hx
    | false => rw [List.filter_cons_of_pos (by simp [hx]), List.foldl_cons, hear_calm hx]

end Updater

/-! ### Parts of a run in both worlds -/

namespace Work

/-- Steps of a run during which nothing comes in. -/
inductive Quiet : {α : Type} → Work σ α → Prop where
  | pure {α : Type} (a : α) : Quiet (pure a)
  | throw {α : Type} (e : Error) : Quiet (throw e : Work σ α)
  | onStore (f : Store → Store) : Quiet (onStore f)
  | onProgress (f : Progress → Progress) : Quiet (onProgress f)
  | note (d : Deed) : Quiet (note d)

/-- A part of a run, and the same part when no attempts come in. -/
inductive Calmed : {α : Type} → Work σ α → Work σ α → Prop where
  | quiet {α : Type} {work : Work σ α} (quiet : Quiet work) : Calmed work work
  | look {α : Type} {next next' : Updater σ → Work σ α}
      (rest : ∀ u, Calmed (next u) (next' u.calm)) : Calmed (get >>= next) (get >>= next')
  | observe {α : Type} {ask ask' : σ → Observed σ α} (calm : ∀ x, ask' x = (ask x).calm) :
      Calmed (observe ask) (observe ask')
  | takeIn (w : World σ) (s : Update.Setup) (target : Intake.Target) (content : Fetch.Content) :
      Calmed (Fetch.openContent w content >>= Update.takeIn s target)
        (Fetch.openContent w.calm content >>= Update.takeIn s target)
  | bind {α β : Type} {work work' : Work σ α} {next next' : α → Work σ β}
      (first : Calmed work work') (rest : ∀ a, Calmed (next a) (next' a)) :
      Calmed (work >>= next) (work' >>= next')
  | outcome {α : Type} {work work' : Work σ α} (inner : Calmed work work') :
      Calmed (outcome work) (outcome work')

/-- The same comes of both parts, and the same is left behind. -/
def Agree {α : Type} (work work' : Work σ α) : Prop :=
  ∀ u : Updater σ, u.Guarded →
    upon work' u.calm = ((upon work u).1, (upon work u).2.calm) ∧ (upon work u).2.Guarded

section

variable {α β : Type}

theorem Quiet.agree {work : Work σ α} (h : Quiet work) : Agree work work := by
  intro u hu
  cases h <;> exact ⟨rfl, hu.running, hu.refused⟩

theorem Agree.bind {work work' : Work σ α} {next next' : α → Work σ β} (hw : Agree work work')
    (hn : ∀ a, Agree (next a) (next' a)) : Agree (work >>= next) (work' >>= next') := by
  intro u hu
  obtain ⟨hsame, hguarded⟩ := hw u hu
  rw [upon_bind, upon_bind, hsame]
  cases h : upon work u with
  | mk r u' =>
    rw [h] at hguarded
    cases r with
    | ok a => exact hn a u' hguarded
    | error e => exact ⟨rfl, hguarded⟩

theorem observe_agree {ask ask' : σ → Observed σ α} (hcalm : ∀ x, ask' x = (ask x).calm) :
    Agree (observe ask) (observe ask') := by
  intro u hu
  have hheard := Updater.hearAll_calm (u := { u with world := (ask u.world).world })
    ⟨hu.running, hu.refused⟩ (ask u.world).signals
  rw [upon_observe, upon_observe, show u.calm.world = u.world from rfl, hcalm]
  exact ⟨Prod.ext rfl hheard.1, hheard.2⟩

/-- No attempt is a reason to stop. -/
theorem haltedAt_calm (control : Control) (opened : Opened) (lines : Nat) :
    Update.haltedAt control opened.calm.meanwhile lines =
      Update.haltedAt control opened.meanwhile lines := by
  have hany : ∀ heard : Nat × Signal,
      (!heard.2.isAttempt && (decide (heard.1 ≤ lines) && heard.2.stops)) =
        (decide (heard.1 ≤ lines) && heard.2.stops) := by
    rintro ⟨after, x⟩
    cases x <;> simp [Signal.isAttempt, Signal.stops]
  rw [Update.haltedAt, Update.haltedAt, Opened.calm, List.any_filter]
  simp only [hany]

theorem takeIn_agree (s : Update.Setup) (target : Intake.Target) (opened : Opened) :
    Agree (Update.takeIn s target opened : Work σ Intake.Outcome)
      (Update.takeIn s target opened.calm) := by
  intro u hu
  have hhalted : Update.haltedAt u.calm.control opened.calm.meanwhile =
      Update.haltedAt u.control opened.meanwhile := funext (haltedAt_calm u.control opened)
  rw [Update.upon_takeIn, Update.upon_takeIn, hhalted]
  dsimp only
  rw [Update.foldl_heard, Update.foldl_heard]
  have hheard := Updater.hearAll_calm (u := { u with
    store := (Intake.run s.intake target (Update.haltedAt u.control opened.meanwhile)
      opened.reading u.store opened.arrival).store
    progress := u.progress.addHosts (Intake.run s.intake target
      (Update.haltedAt u.control opened.meanwhile) opened.reading u.store
        opened.arrival).counted })
    ⟨hu.running, hu.refused⟩ (opened.meanwhile.map Prod.snd)
  rw [List.filter_map] at hheard
  exact ⟨Prod.ext rfl hheard.1, hheard.2⟩

theorem opening_calm (w : World σ) (content : Fetch.Content) (x : σ) :
    content.opening w.calm x = (content.opening w x).calmOpened := by
  cases content <;> rfl

theorem upon_openContent_bind (w : World σ) (content : Fetch.Content) (next : Opened → Work σ α)
    (u : Updater σ) :
    upon (Fetch.openContent w content >>= next) u =
      let o := content.opening w u.world
      let heard := o.signals.foldl Updater.hear { u with world := o.world }
      match o.answer with
      | .ok opened => upon (next opened) heard
      | .error reason => (.error (.io reason), heard) := by
  rw [upon_bind, Fetch.openContent, upon_bind, upon_observe]
  dsimp only
  cases (content.opening w u.world).answer <;> rfl

theorem openContent_takeIn_agree (w : World σ) (s : Update.Setup) (target : Intake.Target)
    (content : Fetch.Content) :
    Agree (Fetch.openContent w content >>= Update.takeIn s target)
      (Fetch.openContent w.calm content >>= Update.takeIn s target) := by
  intro u hu
  have hheard := Updater.hearAll_calm (u := { u with world := (content.opening w u.world).world })
    ⟨hu.running, hu.refused⟩ (content.opening w u.world).signals
  rw [upon_openContent_bind, upon_openContent_bind, show u.calm.world = u.world from rfl,
    opening_calm]
  obtain ⟨hsame, hguarded⟩ := hheard
  dsimp only [Observed.calmOpened, Observed.calm]
  cases (content.opening w u.world).answer with
  | error reason => exact ⟨Prod.ext rfl hsame, hguarded⟩
  | ok opened =>
    have hagree := takeIn_agree s target opened _ hguarded
    rw [← hsame] at hagree
    exact hagree

/-- **What is calmed comes to the same**, as long as a run is under way. -/
theorem Calmed.agree {work work' : Work σ α} (h : Calmed work work') : Agree work work' := by
  induction h with
  | quiet quiet => exact quiet.agree
  | look rest ih => exact fun u hu => ih u u hu
  | observe calm => exact observe_agree calm
  | takeIn w s target content => exact openContent_takeIn_agree w s target content
  | bind first rest ihf ihr => exact ihf.bind ihr
  | outcome inner ih =>
    intro u hu
    obtain ⟨hsame, hguarded⟩ := ih u hu
    rw [upon_outcome, upon_outcome, hsame]
    exact ⟨rfl, hguarded⟩

end

/-! ### Parts that are made alike -/

namespace Calmed

variable {α : Type}

theorem pure (a : α) : Calmed (pure a : Work σ α) (pure a) := .quiet (.pure a)

theorem throw (e : Error) : Calmed (throw e : Work σ α) (throw e) := .quiet (.throw e)

theorem onStore (f : Store → Store) : Calmed (onStore f : Work σ Unit) (Work.onStore f) :=
  .quiet (.onStore f)

theorem onProgress (f : Progress → Progress) :
    Calmed (onProgress f : Work σ Unit) (Work.onProgress f) := .quiet (.onProgress f)

theorem isStopped : Calmed (isStopped : Work σ Bool) isStopped := .look fun _ => .pure _

end Calmed

end Work

open Work (Calmed)

/-! ### Fetches -/

namespace Fetch

variable (w : World σ) (s : Settings)

theorem exchange_calmed (r : Request) : Calmed (exchange w r) (exchange w.calm r) := by
  refine .bind (.quiet (.note _)) fun _ => .bind (.observe fun _ => rfl) fun answer => ?_
  cases answer with
  | ok response => exact .pure response
  | error fault => exact .throw _

theorem follow_calmed (mostHops room : Nat) (previous : List Url) (r : Request) :
    Calmed (follow w mostHops room previous r) (follow w.calm mostHops room previous r) := by
  induction room generalizing previous r with
  | zero =>
    rw [follow, follow]
    refine .bind (exchange_calmed w r) fun response => ?_
    split
    · exact .pure response
    · dsimp only
      split
      · exact .throw _
      · exact .throw _
  | succ room ih =>
    rw [follow, follow]
    refine .bind (exchange_calmed w r) fun response => ?_
    split
    · exact .pure response
    · dsimp only
      split
      · exact .throw _
      · exact ih _ _

theorem attempt_calmed (r : Request) : Calmed (attempt w s r) (attempt w.calm s r) := by
  rw [attempt, attempt]
  split
  · refine .bind (follow_calmed w _ _ [] r) fun response => ?_
    split
    · exact .pure response
    · exact .throw _
  · exact .throw _

theorem attemptsFrom_calmed (r : Request) (left retry : Nat) :
    Calmed (attemptsFrom w s r left retry) (attemptsFrom w.calm s r left retry) := by
  induction left generalizing retry with
  | zero => exact attempt_calmed w s r
  | succ left ih =>
    rw [attemptsFrom, attemptsFrom]
    refine .bind (attempt_calmed w s r).outcome fun answer => ?_
    cases answer with
    | ok response => exact .pure response
    | error e =>
      show Calmed (if e.isTransient = true then _ else _) (if e.isTransient = true then _ else _)
      split
      · exact .bind (.quiet (.note _)) fun _ => ih _
      · exact .throw e

theorem send_calmed (r : Request) : Calmed (send w s r) (send w.calm s r) :=
  attemptsFrom_calmed w s r _ _

theorem download_calmed (source : Source) (url : Url) (conditional : Bool) :
    Calmed (download w s source url conditional) (download w.calm s source url conditional) := by
  refine .bind (send_calmed w s _) fun response => ?_
  cases ofResponse url response with
  | ok fetched => exact .pure fetched
  | error e => exact .throw e

theorem forgeTime_calmed (url : Url) : Calmed (forgeTime w s url) (forgeTime w.calm s url) := by
  rw [forgeTime, forgeTime]
  split
  · exact .pure none
  · refine .bind (send_calmed w s _).outcome fun answer => ?_
    cases answer with
    | ok response => exact .pure _
    | error e => exact .pure none

theorem fetchRemote_calmed (source : Source) (url : Url) :
    Calmed (fetchRemote w s source url) (fetchRemote w.calm s source url) := by
  refine .bind (forgeTime_calmed w s url) fun modified => ?_
  cases modified with
  | none => exact download_calmed w s source url true
  | some modified =>
    show Calmed (if _ then _ else _) (if _ then _ else _)
    split
    · exact .pure _
    · exact .bind (download_calmed w s source url false) fun fetched => .pure _

theorem fileFacts_calmed (path : String) : Calmed (fileFacts w path) (fileFacts w.calm path) := by
  refine .bind (.observe fun _ => rfl) fun answer => ?_
  cases answer with
  | ok facts => exact .pure facts
  | error reason => exact .throw _

theorem fetchLocal_calmed (source : Source) (path : String) :
    Calmed (fetchLocal w source path) (fetchLocal w.calm source path) := by
  refine .bind (fileFacts_calmed w path) fun facts => ?_
  split
  · exact .pure _
  · exact .pure _

theorem place_calmed (source : Source) : Calmed (place source : Work σ Location) (place source) := by
  rw [place]
  split
  · exact .pure _
  · exact .throw _

theorem fetch_calmed (source : Source) : Calmed (fetch w s source) (fetch w.calm s source) := by
  refine .bind (place_calmed source) fun location => ?_
  cases location with
  | remote url => exact fetchRemote_calmed w s source url
  | «local» path => exact fetchLocal_calmed w source path
  | user => exact .throw _

theorem probe_calmed (source : Source) : Calmed (probe w s source) (probe w.calm s source) := by
  refine .bind (place_calmed source) fun location => ?_
  cases location with
  | remote url =>
    refine .bind (forgeTime_calmed w s url) fun modified => ?_
    cases modified with
    | some modified => exact .pure _
    | none => exact .bind (send_calmed w s _) fun response => .pure _
  | «local» path => exact .bind (fileFacts_calmed w path) fun facts => .pure _
  | user => exact .throw _

end Fetch

/-! ### Runs -/

namespace Update

variable (w : World σ) (s : Setup)

theorem preflight_calmed (sources : List Source) :
    Calmed (preflight w sources) (preflight w.calm sources) := by
  rw [preflight, preflight, show isReachable w.calm = isReachable w from rfl]
  split
  · exact .pure ()
  · exact .throw _

theorem settle_calmed (source : Source) (d : Fetch.Download) (generation : Int) :
    Calmed (settle w s source d generation) (settle w.calm s source d generation) := by
  refine .bind .isStopped fun stopped => ?_
  cases stopped with
  | true => exact .pure _
  | false =>
    refine .bind (.onProgress _) fun _ => .bind (.outcome (.takeIn w s _ _)) fun came => ?_
    cases came with
    | ok outcome => exact .pure _
    | error e => exact .pure _

theorem updateSource_calmed (generation : Int) (source : Source) :
    Calmed (updateSource w s generation source) (updateSource w.calm s generation source) := by
  rw [updateSource_eq, updateSource_eq]
  refine .bind (Fetch.fetch_calmed w s.fetch source).outcome fun fetched =>
    .bind (.onProgress _) fun _ => .bind ?_ fun settled => .bind (.onProgress _) fun _ => .pure _
  cases fetched with
  | error e => exact .pure _
  | ok fetched =>
    cases fetched with
    | downloaded d => exact settle_calmed w s source d generation
    | unchanged remoteModified => exact .pure _

theorem updateSources_calmed (generation : Int) (shown : Bool) (sources : List Source) :
    Calmed (updateSources w s generation shown sources)
      (updateSources w.calm s generation shown sources) := by
  induction sources with
  | nil => exact .pure []
  | cons source sources ih =>
    have hturn : Calmed
        (do
          let settled ← updateSource w s generation source
          return ⟨source, settled⟩ :: (← updateSources w s generation shown sources))
        (do
          let settled ← updateSource w.calm s generation source
          return ⟨source, settled⟩ :: (← updateSources w.calm s generation shown sources)) :=
      .bind (updateSource_calmed w s generation source) fun settled => .bind ih fun results =>
        .pure _
    rw [updateSources, updateSources]
    refine .bind .isStopped fun stopped => ?_
    cases stopped with
    | true => exact .pure []
    | false =>
      cases shown with
      | true => exact .bind (.onProgress _) fun _ => hturn
      | false => exact hturn

theorem plan_calmed : Calmed (plan : Work σ Plan) plan :=
  .look fun _ => .bind (.onStore _) fun _ => .pure _

theorem syncTable_calmed : Calmed (syncTable : Work σ Summary) syncTable := by
  refine .look fun u => ?_
  rw [show u.calm.store = u.store from rfl]
  cases u.store.sync with
  | ok made => exact .bind (.onStore _) fun _ => .pure _
  | error e => exact .throw e

theorem finish_calmed (active : Int) (results : List Result) :
    Calmed (finish active results : Work σ Report) (finish active results) := by
  refine .bind (.onProgress _) fun _ => .look fun u => ?_
  dsimp only
  split
  · exact .bind (.onStore _) fun _ => .bind (.throw _) fun _ => .bind (.onStore _) fun _ =>
      .bind syncTable_calmed fun _ => .pure _
  · exact .bind (.onStore _) fun _ => .bind syncTable_calmed fun _ => .pure _

theorem conclusion_calmed (active : Int) (results : List Result) :
    Calmed (conclusion active results : Work σ Report) (conclusion active results) := by
  refine .bind .isStopped fun stopped => ?_
  cases stopped with
  | true => exact .bind (.onProgress _) fun _ => .look fun u => .pure _
  | false => exact finish_calmed active results

theorem runAll_calmed : Calmed (runAll w s) (runAll w.calm s) := by
  rw [runAll_eq, runAll_eq]
  have hplan : ∀ p : Plan, Calmed (runPlan w s p) (runPlan w.calm s p) := fun p =>
    .bind (.onStore _) fun _ => .look fun u => .bind (.onProgress _) fun _ =>
      .bind (updateSources_calmed w s _ true p.files) fun first =>
        .bind (updateSources_calmed w s _ false _) fun second =>
          .bind (.onStore _) fun _ => conclusion_calmed _ _
  refine .bind plan_calmed fun p => ?_
  split
  · exact .bind (preflight_calmed w p.remote) fun _ => hplan p
  · exact hplan p

theorem sourceOf_calmed (id : Int) : Calmed (sourceOf id : Work σ Source) (sourceOf id) := by
  refine .look fun u => ?_
  dsimp only [Updater.calm]
  cases u.store.source id with
  | ok source => exact .pure source
  | error e => exact .throw e

theorem refreshOnly_calmed (source : Source) (active : Int) :
    Calmed (refreshOnly source active : Work σ Report) (refreshOnly source active) := by
  have hrest :
      let refreshed : Work σ Report := do
        let summary ← syncTable
        return { generation := active, committed := true, summary := some summary }
      Calmed refreshed refreshed :=
    .bind syncTable_calmed fun summary => .pure _
  rw [refreshOnly]
  split
  · exact .bind (.onStore _) fun _ => hrest
  · exact hrest

theorem conclude_calmed (source : Source) (active : Int) (settled : Settled) :
    Calmed (conclude source active settled : Work σ Report) (conclude source active settled) := by
  cases settled with
  | updated learned =>
    exact .bind (.onStore _) fun _ => .bind syncTable_calmed fun _ =>
      .bind (.onProgress _) fun _ => .look fun u => .pure _
  | unchanged learned => exact .pure _
  | failed reason => exact .bind (.onStore _) fun _ => .throw _
  | stopped => exact .bind (.onStore _) fun _ => .bind (.onProgress _) fun _ => .pure _

theorem runFetched_calmed (source : Source) (active : Int) (isRemote : Bool) :
    Calmed (runFetched w s source active isRemote) (runFetched w.calm s source active isRemote) := by
  refine .bind ?_ fun fetched => ?_
  · refine .bind (.onProgress _) fun _ => .bind (.onProgress _) fun _ =>
      .bind (Fetch.fetch_calmed w s.fetch source).outcome fun answer =>
        .bind (.onProgress _) fun _ => ?_
    cases answer with
    | ok fetched => exact .pure fetched
    | error e => exact .throw _
  · cases fetched with
    | unchanged remoteModified =>
      refine .bind (.onProgress _) fun _ => ?_
      cases remoteModified with
      | none => exact .pure _
      | some at_ => exact .bind (.onStore _) fun _ => .pure _
    | downloaded d =>
      exact .bind (settle_calmed w s source d _) fun settled => .bind (.onProgress _) fun _ =>
        conclude_calmed source active settled

theorem runOne_calmed (id : Int) : Calmed (runOne w s id) (runOne w.calm s id) := by
  rw [runOne_eq, runOne_eq]
  refine .bind (sourceOf_calmed id) fun source => .look fun u => ?_
  dsimp only [Updater.calm]
  split
  · exact refreshOnly_calmed source _
  · have hplace : ∀ isRemote, Calmed (runInPlace w s source u.store.active isRemote)
        (runInPlace w.calm s source u.store.active isRemote) := by
      intro isRemote
      refine .bind (.onStore _) fun _ => .bind (runFetched_calmed w s source _ _).outcome
        fun result => .bind (.onStore _) fun _ => ?_
      cases result with
      | ok report => exact .pure report
      | error e => exact .throw e
    refine .bind (Fetch.place_calmed source) fun location => ?_
    split
    · exact .bind (preflight_calmed w [source]) fun _ => hplace _
    · exact hplace _

theorem checkSource_calmed (source : Source) :
    Calmed (checkSource w s source) (checkSource w.calm s source) := by
  refine .bind .isStopped fun stopped => ?_
  cases stopped with
  | true => exact .pure none
  | false =>
    refine .bind (.onProgress _) fun _ => .bind (Fetch.probe_calmed w s.fetch source).outcome
      fun reported => .bind (.onProgress _) fun _ => ?_
    cases reported with
    | error e => exact .pure _
    | ok at? => exact .bind (.onStore _) fun _ => .pure _

theorem checkSources_calmed (sources : List Source) :
    Calmed (checkSources w s sources) (checkSources w.calm s sources) := by
  induction sources with
  | nil => exact .pure []
  | cons source sources ih =>
    exact .bind (checkSource_calmed w s source) fun finding => .bind ih fun _ => .pure _

theorem runCheck_calmed : Calmed (runCheck w s) (runCheck w.calm s) := by
  refine .look fun u => ?_
  have hrest : Calmed
      (do
        Work.onProgress (·.setTotal .check u.store.enabledSources.length)
        let findings ← checkSources w s
          (sortBy (fun a b => w.turn a ≤ w.turn b) u.store.enabledSources)
        return sortBy (fun a b => a.source ≤ b.source) findings)
      (do
        Work.onProgress (·.setTotal .check u.store.enabledSources.length)
        let findings ← checkSources w.calm s
          (sortBy (fun a b => w.turn a ≤ w.turn b) u.store.enabledSources)
        return sortBy (fun a b => a.source ≤ b.source) findings) :=
    .bind (.onProgress _) fun _ => .bind (checkSources_calmed w s _) fun _ => .pure _
  dsimp only [Updater.calm]
  split
  · exact .bind (preflight_calmed w _) fun _ => hrest
  · exact hrest

end Update

end Sinkhole
