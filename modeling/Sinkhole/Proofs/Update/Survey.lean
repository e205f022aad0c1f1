import Mathlib.Logic.Relation
import Sinkhole.Proofs.Update.Asked

/-! What a check finds out, in whatever order it is told.

Every source that is on is waiting for its turn, being asked about, or done with; a reply
moves one of them on, and only the time of that one is written down (`Faithful`). So a
check that nobody stops has one finding for each, made from the reply about that source
alone (`Surveyed`), and the store is what the findings say (`Store.noted`), however
the check ends. Asking about one source after the other is one of the orders
(`InStep.goes`), so all that holds of a check as it asks holds of `check`
(`check_surveyed`). -/
namespace Sinkhole

open Update (Finding findingOf noteReply Reply)

/-! ### What is written down -/

/-- The source with the time that a finding gives, if it gives one. -/
def Source.notedBy (x : Source) (f : Finding) : Source :=
  if f.error.isNone then { x with remoteModified := f.remoteModified.map (·.micros) } else x

/-- The source with the time that the findings give for it. -/
def Source.notedIn (findings : List Finding) (x : Source) : Source :=
  (findings.find? (·.source == x.id)).elim x x.notedBy

namespace Store

variable {s : Store} {x : Source} {findings : List Finding}

/-- The store with the times that the findings give. -/
def noted (s : Store) (findings : List Finding) : Store :=
  { s with sources := s.sources.map (Source.notedIn findings) }

@[simp]
theorem noted_nil (s : Store) : s.noted [] = s := by
  show { s with sources := s.sources.map id } = s
  rw [List.map_id]

@[simp]
theorem findingOf_source (x : Source) (reply : Reply) : (findingOf x reply).source = x.id := by
  cases reply <;> rfl

theorem notedIn_id (findings : List Finding) (x : Source) : (x.notedIn findings).id = x.id := by
  unfold Source.notedIn Source.notedBy
  cases findings.find? (·.source == x.id) with
  | none => rfl
  | some f =>
    rw [Option.elim_some]
    split <;> rfl

/-- The first finding about a source is the one that counts. -/
theorem notedIn_concat (h : ∀ f ∈ findings, f.source ≠ x.id) (f : Finding) :
    x.notedIn (findings ++ [f]) = if f.source == x.id then x.notedBy f else x := by
  have hnone : findings.find? (·.source == x.id) = none :=
    List.find?_eq_none.mpr fun f hf => by simpa using h f hf
  rw [Source.notedIn, List.find?_append, hnone, Option.none_or, List.find?_singleton]
  split <;> rfl

/-- A finding about another source changes nothing. -/
theorem notedIn_concat_of_ne {f : Finding} (h : f.source ≠ x.id) :
    x.notedIn (findings ++ [f]) = x.notedIn findings := by
  have hother : (f.source == x.id) = false := beq_false_of_ne h
  rw [Source.notedIn, List.find?_append, List.find?_singleton, hother]
  simp [Source.notedIn]

theorem noteReply_eq (s : Store) (x : Source) (reply : Reply) :
    noteReply s x reply = s.modifySource x.id (·.notedBy (findingOf x reply)) := by
  cases reply with
  | ok reported => rfl
  | error e => simp [noteReply, modifySource, Source.notedBy, findingOf]

/-- A reply is written down as its finding says. -/
theorem noteReply_noted (hnew : ∀ f ∈ findings, f.source ≠ x.id) (reply : Reply) :
    noteReply (s.noted findings) x reply = s.noted (findings ++ [findingOf x reply]) := by
  rw [noteReply_eq]
  refine congrArg (fun sources => ({ s with sources } : Store)) ?_
  show (s.sources.map (Source.notedIn findings)).map _ = _
  rw [List.map_map]
  refine List.map_congr_left fun y _ => ?_
  rw [Function.comp, notedIn_id]
  by_cases hy : y.id = x.id
  · have hfirst : ∀ f ∈ findings, f.source ≠ y.id := hy ▸ hnew
    have hbefore : y.notedIn findings = y := by
      rw [Source.notedIn, List.find?_eq_none.mpr fun f hf => by simpa using hfirst f hf]
      rfl
    rw [hbefore, notedIn_concat hfirst, findingOf_source, hy]
  · rw [notedIn_concat_of_ne (by simpa using Ne.symm hy), if_neg (by simpa using hy)]

theorem find?_source (hn : (findings.map (·.source)).Nodup) {id : Int} {f : Finding} :
    findings.find? (·.source == id) = some f ↔ f ∈ findings ∧ f.source = id := by
  constructor
  · intro h
    exact ⟨List.mem_of_find?_eq_some h, by simpa using List.find?_some h⟩
  · rintro ⟨hf, rfl⟩
    obtain ⟨g, hg⟩ : ∃ g, findings.find? (·.source == f.source) = some g :=
      Option.isSome_iff_exists.mp (List.find?_isSome.mpr ⟨f, hf, beq_self_eq_true f.source⟩)
    have hid : g.source = f.source := by simpa using List.find?_some hg
    rw [hg, List.inj_on_of_nodup_map hn (List.mem_of_find?_eq_some hg) hf hid]

/-- Findings about different sources may come in any order. -/
theorem noted_perm {a b : List Finding} (h : a.Perm b) (hn : (a.map (·.source)).Nodup) :
    s.noted a = s.noted b := by
  have hn' : (b.map (·.source)).Nodup := (h.map _).nodup_iff.mp hn
  have hnoted : Source.notedIn a = Source.notedIn b := by
    funext x
    have hfind : a.find? (·.source == x.id) = b.find? (·.source == x.id) := by
      refine Option.ext fun f => ?_
      rw [find?_source hn, find?_source hn', h.mem_iff]
    rw [Source.notedIn, hfind, Source.notedIn]
  rw [noted, noted, hnoted]

theorem Keyed.enabledSources_ids (hk : s.Keyed) : (s.enabledSources.map (·.id)).Nodup :=
  hk.sublist (List.filter_sublist.map _)

end Store

namespace Update

open Work (upon)
open Store (findingOf_source noteReply_noted noted_perm)

/-! ### One finding for each source -/

/-- What a check that nobody stops returns: by ascending id, one finding for every source that is
on, and in each what came of asking about that source. -/
structure Surveyed (store : Store) (reply : Source → Reply) (findings : List Finding) : Prop where
  ordered : findings.Pairwise (·.source < ·.source)
  each : findings.Perm (store.enabledSources.map fun x => findingOf x (reply x))

variable {store : Store} {replies : List (Source × Reply)}

theorem findings_ids (replies : List (Source × Reply)) :
    (replies.map fun r => findingOf r.1 r.2).map (·.source) =
      (replies.map Prod.fst).map (·.id) := by
  simp [Function.comp_def]

/-- With one reply about each source, what was replied is a function of the source. -/
theorem exists_reply (hn : (replies.map Prod.fst).Nodup) :
    ∃ reply : Source → Reply, ∀ r ∈ replies, reply r.1 = r.2 := by
  have hone (x : Source) : ∃ a : Reply, ∀ r ∈ replies, r.1 = x → a = r.2 := by
    by_cases hx : ∃ r ∈ replies, r.1 = x
    · obtain ⟨r, hr, rfl⟩ := hx
      exact ⟨r.2, fun q hq hqr => by rw [List.inj_on_of_nodup_map hn hq hr hqr]⟩
    · exact ⟨.ok none, fun r hr hrx => absurd ⟨r, hr, hrx⟩ hx⟩
  choose reply hreply using hone
  exact ⟨reply, fun r hr => hreply r.1 r hr rfl⟩

theorem sortBy_source (findings : List Finding) :
    (sortBy (fun a b => a.source ≤ b.source) findings).Pairwise (·.source ≤ ·.source) := by
  refine (sortBy_pairwise ?_ ?_ findings).imp of_decide_eq_true
  · intro a b
    simpa using Int.le_total a.source b.source
  · intro a b c hab hbc
    simp only [decide_eq_true_eq] at hab hbc ⊢
    exact Int.le_trans hab hbc

theorem surveyed_of_replies (hk : store.Keyed)
    (hall : (replies.map Prod.fst).Perm store.enabledSources) {reply : Source → Reply}
    (hreply : ∀ r ∈ replies, reply r.1 = r.2) :
    Surveyed store reply
      (sortBy (fun a b => a.source ≤ b.source) (replies.map fun r => findingOf r.1 r.2)) := by
  have hperm : (sortBy (fun a b => a.source ≤ b.source)
      (replies.map fun r => findingOf r.1 r.2)).Perm (replies.map fun r => findingOf r.1 r.2) :=
    sortBy_perm _
  have hids := (hperm.map (·.source)).trans (.of_eq (findings_ids replies))
  have hnodup := (hids.trans (hall.map _)).nodup_iff.mpr hk.enabledSources_ids
  have hmap : (replies.map fun r => findingOf r.1 r.2) =
      (replies.map Prod.fst).map fun x => findingOf x (reply x) := by
    rw [List.map_map]
    exact List.map_congr_left fun r hr => by rw [Function.comp, hreply r hr]
  refine ⟨((sortBy_source _).and (List.pairwise_map.mp hnodup)).imp fun h => ?_, ?_⟩
  · exact Int.lt_iff_le_and_ne.mpr h
  · refine hperm.trans ?_
    rw [hmap]
    exact hall.map _

/-! ### In any order -/

namespace Survey

variable {p q : Survey}

/-- What holds of a check at any moment. -/
structure Faithful (store : Store) (p : Survey) : Prop where
  sources : (p.waiting ++ p.asking ++ p.replies.map Prod.fst ++ p.passed).Perm store.enabledSources
  noted : p.store = store.noted p.findings
  passed : p.passed ≠ [] → p.control.stopped = true

theorem start_faithful (store : Store) (control : Control) :
    Faithful store (start store control) where
  sources := by simp [start]
  noted := (Store.noted_nil store).symm
  passed := by simp [start]

theorem Asks.faithful (hk : store.Keyed) (h : Faithful store p) (step : Asks p q) :
    Faithful store q := by
  have hsources := h.sources
  cases step with
  | @ask before source after waiting going =>
    rw [waiting] at hsources
    refine ⟨.trans ?_ hsources, h.noted, h.passed⟩
    simp [List.perm_iff_count, List.count_append, List.count_cons]
    omega
  | @pass before source after waiting halted =>
    rw [waiting] at hsources
    refine ⟨.trans ?_ hsources, h.noted, fun _ => Control.checkpoint_eq_halt.mp halted⟩
    simp [List.perm_iff_count, List.count_append, List.count_cons]
    omega
  | @reply before source after reply asking =>
    rw [asking] at hsources
    have hnew : ∀ f ∈ p.findings, f.source ≠ source.id := by
      -- it was being asked about, so no reply about it had come
      have hnodup := (hsources.map (·.id)).nodup_iff.mpr hk.enabledSources_ids
      rw [List.map_append, List.map_append] at hnodup
      have hapart := (List.nodup_append.mp (List.nodup_append.mp hnodup).1).2.2
      intro f hf
      obtain ⟨r, hr, rfl⟩ := List.mem_map.mp hf
      rw [findingOf_source]
      have hasked : source ∈ p.waiting ++ (before ++ source :: after) := by simp
      exact (hapart _ (List.mem_map_of_mem hasked) _
        (List.mem_map_of_mem (List.mem_map_of_mem hr))).symm
    refine ⟨.trans ?_ hsources, ?_, h.passed⟩
    · simp [List.perm_iff_count, List.count_append, List.count_cons]
      omega
    · show noteReply p.store source reply = _
      rw [h.noted, noteReply_noted hnew, findings, findings, List.map_append]
      rfl

theorem Step.faithful (hk : store.Keyed) (h : Faithful store p) (step : Step p q) :
    Faithful store q := by
  cases step with
  | ask step => exact step.faithful hk h
  | stop => exact ⟨h.sources, h.noted, fun _ => p.control.stop_stopped⟩
  | pause => exact ⟨h.sources, h.noted, fun hp => p.control.pause_stopped.trans (h.passed hp)⟩
  | resume => exact ⟨h.sources, h.noted, h.passed⟩

theorem reached (hk : store.Keyed) {control : Control}
    (run : Relation.ReflTransGen Step (start store control) p) : Faithful store p := by
  induction run with
  | refl => exact start_faithful store control
  | tail _ step ih => exact step.faithful hk ih

/-- Nobody waits for ever: there is a next step unless the check is paused. -/
theorem exists_asks (hover : ¬p.Over) (hfree : p.control.checkpoint ≠ none) :
    ∃ q, Asks p q := by
  cases hasking : p.asking with
  | cons source after => exact ⟨_, @Asks.reply p [] source after (.ok none) hasking⟩
  | nil =>
    cases hwaiting : p.waiting with
    | nil => exact absurd ⟨hwaiting, hasking⟩ hover
    | cons source after =>
      cases hcheck : p.control.checkpoint with
      | none => exact absurd hcheck hfree
      | some answer =>
        cases answer with
        | go => exact ⟨_, @Asks.ask p [] source after hwaiting hcheck⟩
        | halt => exact ⟨_, @Asks.pass p [] source after hwaiting hcheck⟩

/-- Each source takes two steps at most. -/
theorem Asks.lessens (step : Asks p q) :
    2 * q.waiting.length + q.asking.length < 2 * p.waiting.length + p.asking.length := by
  cases step with
  | ask waiting _ =>
    rw [waiting]
    simp only [List.length_append, List.length_cons, List.length_nil]
    omega
  | pass waiting _ =>
    rw [waiting]
    simp only [List.length_append, List.length_cons]
    omega
  | reply _ asking =>
    rw [asking]
    simp only [List.length_append, List.length_cons]
    omega

/-- A check that is not paused can come to its end. -/
theorem finishes (hfree : p.control.checkpoint ≠ none) :
    ∃ q, Relation.ReflTransGen Asks p q ∧ q.Over := by
  induction hn : 2 * p.waiting.length + p.asking.length using Nat.strongRecOn generalizing p with
  | ind n ih =>
    by_cases hover : p.Over
    · exact ⟨p, .refl, hover⟩
    · obtain ⟨q, hstep⟩ := exists_asks hover hfree
      have hcontrol : q.control = p.control := by
        cases hstep <;> rfl
      obtain ⟨last, hrun, hlast⟩ := ih _ (hn ▸ hstep.lessens) (hcontrol ▸ hfree) rfl
      exact ⟨last, .head hstep hrun, hlast⟩

/-- No two replies are about one source. -/
theorem Faithful.replies_ids (hk : store.Keyed) (h : Faithful store p) :
    ((p.replies.map Prod.fst).map (·.id)).Nodup := by
  have hnodup := (h.sources.map (·.id)).nodup_iff.mpr hk.enabledSources_ids
  rw [List.map_append, List.map_append] at hnodup
  exact (List.nodup_append.mp (List.nodup_append.mp hnodup).1).2.1

theorem Faithful.noted_result (hk : store.Keyed) (h : Faithful store p) :
    p.store = store.noted p.result := by
  have hids : (p.findings.map (·.source)).Nodup := by
    rw [findings, findings_ids]
    exact h.replies_ids hk
  exact h.noted.trans (noted_perm (sortBy_perm p.findings).symm hids)

/-- A check that is over and was not stopped has one finding for each source. -/
theorem Faithful.surveyed (hk : store.Keyed) (h : Faithful store p) (hover : p.Over)
    (hgoing : p.control.stopped = false) :
    ∃ reply, Surveyed store reply p.result ∧
      ∀ x ∈ store.enabledSources, (x, reply x) ∈ p.replies := by
  have hpassed : p.passed = [] := by
    by_contra hp
    rw [h.passed hp] at hgoing
    cases hgoing
  have hall : (p.replies.map Prod.fst).Perm store.enabledSources := by
    have hsources := h.sources
    rwa [hover.1, hover.2, hpassed, List.append_nil] at hsources
  obtain ⟨reply, hreply⟩ := exists_reply (h.replies_ids hk).of_map
  refine ⟨reply, surveyed_of_replies hk hall hreply, fun x hx => ?_⟩
  obtain ⟨r, hr, rfl⟩ := List.mem_map.mp (hall.mem_iff.mpr hx)
  rw [hreply r hr]
  exact hr

end Survey

/-! ### One after the other -/

variable {σ : Type} {w : World σ} {s : Setup} {p q : Survey} {u u' : Updater σ}
variable {source : Source} {sources rest before after : List Source}

/-- The check `p` is where the updater `u` is, with these sources still to be asked about. -/
structure InStep (p : Survey) (u : Updater σ) (sources : List Source) : Prop where
  waiting : p.waiting.Perm sources
  asking : p.asking = []
  store : p.store = u.store
  control : p.control = if u.control.stopped then Control.stop {} else {}

/-- From `p` a check can go on to `q`, with these replies on the way, as `u` does by asking about
one source after the other. -/
structure GoesOn (w : World σ) (s : Setup) (p : Survey) (u : Updater σ) (sources : List Source)
    (q : Survey) (replies : List (Source × Reply)) : Prop where
  run : Relation.ReflTransGen Survey.Step p q
  ended : q.Over
  told : q.replies = p.replies ++ replies
  result : (upon (checkSources w s sources) u).1 = .ok (replies.map fun r => findingOf r.1 r.2)
  store : q.store = (upon (checkSources w s sources) u).2.store
  stopped : q.control.stopped = (upon (checkSources w s sources) u).2.control.stopped
  /-- After a stop nobody is asked. -/
  halted : u.control.stopped = true → replies = []
  order : replies.map Prod.fst <+: sources
  /-- Each reply is the one that its source gives on its turn. -/
  turns : ∀ done r more, replies = done ++ r :: more → ∃ progress,
    r.2 = (upon (Fetch.probe w s.fetch r.1)
      { (upon (checkSources w s (done.map Prod.fst)) u).2 with progress }).1

theorem InStep.goes_nil (h : InStep p u []) : GoesOn w s p u [] p [] where
  run := .refl
  ended := ⟨h.waiting.eq_nil, h.asking⟩
  told := (List.append_nil _).symm
  result := rfl
  store := h.store
  stopped := by
    rw [h.control]
    cases hs : u.control.stopped <;> exact hs.symm
  halted _ := rfl
  order := List.prefix_rfl
  turns done r more hdone := by simp at hdone

/-! #### After a stop -/

/-- The check when it has passed a source over. -/
def Survey.without (p : Survey) (waiting : List Source) (source : Source) : Survey :=
  { p with waiting, passed := p.passed ++ [source] }

theorem InStep.without (h : InStep p u sources) (hrest : (before ++ after).Perm rest) :
    InStep (p.without (before ++ after) source) u rest :=
  ⟨hrest, h.asking, h.store, h.control⟩

theorem InStep.goes_without (h : InStep p u sources) (hs : u.control.stopped = true)
    (hsplit : p.waiting = before ++ source :: after) {replies : List (Source × Reply)}
    (hrest : GoesOn w s (p.without (before ++ after) source) u rest q replies) :
    GoesOn w s p u (source :: rest) q [] := by
  obtain rfl := hrest.halted hs
  have hpass : Survey.Asks p (p.without (before ++ after) source) :=
    .pass hsplit (by rw [h.control, hs]; rfl)
  have hupon := upon_checkSources_cons (upon_checkSource_stopped w s source hs) rest
  refine ⟨.head (.ask hpass) hrest.run, hrest.ended, hrest.told, ?_, ?_, ?_, fun _ => rfl,
    List.nil_prefix, fun done r more hdone => by simp at hdone⟩
  · rw [hupon, hrest.result]
    rfl
  · rw [hupon, hrest.store]
  · rw [hupon, hrest.stopped]

/-! #### Before one -/

/-- The check when it has asked nobody but `source` since, and a stop may have come meanwhile. -/
def Survey.answered (p : Survey) (waiting : List Source) (source : Source) (reply : Reply)
    (stopped : Bool) : Survey :=
  { p with
    waiting
    asking := []
    replies := p.replies ++ [(source, reply)]
    store := noteReply p.store source reply
    control := if stopped then Control.stop {} else {} }

theorem InStep.answered (h : InStep p u sources) (hrest : (before ++ after).Perm rest)
    {reply : Reply} (hnoted : u'.store = noteReply u.store source reply) :
    InStep (p.answered (before ++ after) source reply u'.control.stopped) u' rest where
  waiting := hrest
  asking := rfl
  store := by
    rw [hnoted, ← h.store]
    rfl
  control := rfl

theorem Survey.answered_reached (hwaiting : p.waiting = before ++ source :: after)
    (hasking : p.asking = []) (hcontrol : p.control = {}) (reply : Reply) (stopped : Bool) :
    Relation.ReflTransGen Step p (p.answered (before ++ after) source reply stopped) := by
  have hask : Asks p { p with waiting := before ++ after, asking := p.asking ++ [source] } :=
    .ask hwaiting (by rw [hcontrol]; rfl)
  have hreply : Asks { p with waiting := before ++ after, asking := p.asking ++ [source] }
      (p.answered (before ++ after) source reply false) := by
    rw [answered, if_neg Bool.false_ne_true, ← hcontrol]
    exact @Asks.reply _ [] source [] reply (by rw [hasking])
  have hrun := (Relation.ReflTransGen.single (Step.ask hask)).tail (.ask hreply)
  cases stopped with
  | false => exact hrun
  | true => exact hrun.tail .stop

theorem InStep.goes_answered (h : InStep p u sources) (hs : u.control.stopped = false)
    (hsplit : p.waiting = before ++ source :: after) {reply : Reply} {progress : Progress}
    (hprobe : (upon (Fetch.probe w s.fetch source) { u with progress }).1 = reply)
    (hfirst : upon (checkSource w s source) u = (.ok (some (findingOf source reply)), u'))
    {replies : List (Source × Reply)}
    (hrest : GoesOn w s (p.answered (before ++ after) source reply u'.control.stopped) u' rest q
      replies) :
    GoesOn w s p u (source :: rest) q ((source, reply) :: replies) := by
  have hcontrol : p.control = {} := by
    rw [h.control, hs]
    rfl
  have hupon := upon_checkSources_cons hfirst rest
  refine ⟨(Survey.answered_reached hsplit h.asking hcontrol reply _).trans hrest.run, hrest.ended,
    ?_, ?_, ?_, ?_, fun hstop => absurd hstop (by simp [hs]), ?_, ?_⟩
  · rw [hrest.told, Survey.answered, List.append_assoc]
    rfl
  · rw [hupon, hrest.result]
    rfl
  · rw [hupon, hrest.store]
  · rw [hupon, hrest.stopped]
  · exact List.prefix_cons_inj source |>.mpr hrest.order
  · intro done r more hdone
    cases done with
    | nil =>
      cases hdone
      exact ⟨progress, hprobe.symm⟩
    | cons first done =>
      obtain ⟨hsame, hdone⟩ := List.cons.inj hdone
      obtain ⟨progress', hr⟩ := hrest.turns done r more hdone
      subst hsame
      refine ⟨progress', ?_⟩
      rw [List.map_cons, upon_checkSources_cons hfirst]
      exact hr

/-- Asking about the sources one after the other is a way for a check to go on. -/
theorem InStep.goes (h : InStep p u sources) : ∃ q replies, GoesOn w s p u sources q replies := by
  induction sources generalizing p u with
  | nil => exact ⟨p, [], h.goes_nil⟩
  | cons source rest ih =>
    obtain ⟨before, after, hsplit⟩ := List.append_of_mem (h.waiting.mem_iff.mpr List.mem_cons_self)
    have hrest : (before ++ after).Perm rest := by
      have hperm := h.waiting
      rw [hsplit] at hperm
      exact (List.perm_middle.symm.trans hperm).cons_inv
    cases hs : u.control.stopped with
    | true =>
      obtain ⟨q, replies, hgoes⟩ := ih (h.without hrest)
      exact ⟨q, [], h.goes_without hs hsplit hgoes⟩
    | false =>
      obtain ⟨progress, u', hfirst, hnoted⟩ := upon_checkSource_noted w s source hs
      obtain ⟨q, replies, hgoes⟩ := ih (h.answered hrest hnoted)
      exact ⟨q, _, h.goes_answered hs hsplit rfl hfirst hgoes⟩

/-- A check that finds a network goes one of the ways in which a check can go. -/
theorem check_reached (w : World σ) (s : Setup) (hrunning : u.running = false)
    (hnet : isReachable w (u.store.enabledSources.filterMap Source.remoteHost?) = true) :
    ∃ p, Relation.ReflTransGen Survey.Step (Survey.start u.store {}) p ∧ p.Over ∧
      (check w s u).1 = .ok p.result ∧ p.store = (check w s u).2.store ∧
      p.control.stopped = (check w s u).2.control.stopped ∧
      ∀ r ∈ p.replies, ∃ turn progress, ComesTo w s u r.1 turn ∧
        r.2 = (upon (Fetch.probe w s.fetch r.1) { turn with progress }).1 := by
  have hstep : InStep (Survey.start u.store {})
      { Work.started none u with
        progress := (Work.started none u).progress.setTotal .check u.store.enabledSources.length }
      (sortBy (fun a b => w.turn a ≤ w.turn b) u.store.enabledSources) :=
    ⟨(sortBy_perm _).symm, rfl, rfl, rfl⟩
  obtain ⟨p, replies, hgoes⟩ := hstep.goes (w := w) (s := s)
  have hupon := upon_runCheck w s (Work.started none u)
  rw [if_pos (show isReachable w ((Work.started none u).store.enabledSources.filterMap
    Source.remoteHost?) = true from hnet)] at hupon
  rw [check, Work.supervised_idle none _ hrunning, hupon]
  refine ⟨p, hgoes.run, hgoes.ended, ?_, hgoes.store, hgoes.stopped, fun r hr => ?_⟩
  · rw [Survey.result, Survey.findings, hgoes.told]
    exact congrArg (Except.map _) hgoes.result
  · have hmem : r ∈ replies := by simpa [hgoes.told, Survey.start] using hr
    obtain ⟨done, more, rfl⟩ := List.append_of_mem hmem
    obtain ⟨progress, hprobe⟩ := hgoes.turns done r more rfl
    obtain ⟨rest, hprefix⟩ := hgoes.order
    refine ⟨_, progress, ⟨done.map Prod.fst, more.map Prod.fst ++ rest, ?_, rfl⟩, hprobe⟩
    rw [← hprefix]
    simp

/-- **What a check finds out, and what it leaves.** However it ends, the store is as it was but for
the times that its findings give. If it finds a network and is not stopped, it has one finding for
each source that is on, by ascending id, made from what came of asking about that source on its
turn. The same holds in whatever order it asks and is answered, and unless it is paused it can come
to its end. -/
theorem check_surveyed (w : World σ) (s : Setup) (u : Updater σ) (hk : u.store.Keyed) :
    (check w s u).2.store = u.store.noted ((check w s u).1.toOption.getD []) ∧
      (u.running = false →
        isReachable w (u.store.enabledSources.filterMap Source.remoteHost?) = true →
        (check w s u).2.control.stopped = false →
        ∃ reply findings, (check w s u).1 = .ok findings ∧ Surveyed u.store reply findings ∧
          ∀ x ∈ u.store.enabledSources, ∃ turn progress, ComesTo w s u x turn ∧
            reply x = (upon (Fetch.probe w s.fetch x) { turn with progress }).1) ∧
      ∀ control p, Relation.ReflTransGen Survey.Step (Survey.start u.store control) p →
        p.store = u.store.noted p.findings ∧
        (p.control.checkpoint ≠ none → ∃ q, Relation.ReflTransGen Survey.Asks p q ∧ q.Over) ∧
        (p.Over → p.control.stopped = false →
          p.store = u.store.noted p.result ∧
          ∃ reply, Surveyed u.store reply p.result ∧
            ∀ x ∈ u.store.enabledSources, (x, reply x) ∈ p.replies) := by
  refine ⟨?_, fun hrunning hnet hgoing => ?_, fun control p hrun => ?_⟩
  · cases hrunning : u.running with
    | true =>
      rcases Work.supervised_cases none (runCheck w s) u with ⟨-, hrun⟩ | ⟨hidle, -⟩
      · rw [check, hrun]
        exact (Store.noted_nil u.store).symm
      · rw [hrunning] at hidle
        cases hidle
    | false =>
      cases hnet : isReachable w (u.store.enabledSources.filterMap Source.remoteHost?) with
      | true =>
        obtain ⟨p, hrun, -, hresult, hstore, -⟩ := check_reached w s hrunning hnet
        rw [hresult, ← hstore]
        exact (Survey.reached hk hrun).noted_result hk
      | false =>
        rw [check, Work.supervised_idle none _ hrunning, upon_runCheck, if_neg]
        · exact (Store.noted_nil u.store).symm
        · rw [show isReachable w ((Work.started none u).store.enabledSources.filterMap
            Source.remoteHost?) = false from hnet]
          exact Bool.false_ne_true
  · obtain ⟨p, hrun, hover, hresult, -, hstopped, hturns⟩ := check_reached w s hrunning hnet
    obtain ⟨reply, hsurveyed, hreply⟩ :=
      (Survey.reached hk hrun).surveyed hk hover (hstopped.trans hgoing)
    exact ⟨reply, p.result, hresult, hsurveyed, fun x hx => hturns _ (hreply x hx)⟩
  · have hp := Survey.reached hk hrun
    exact ⟨hp.noted, Survey.finishes, fun hover hgoing =>
      ⟨hp.noted_result hk, hp.surveyed hk hover hgoing⟩⟩

/-- A check of the sources of `assorted`, one of which cannot be asked. -/
theorem check_surveyed_assorted : assorted.Keyed ∧
    ∃ reply findings, (check shelf plain atDesk).1 = .ok findings ∧
      Surveyed assorted reply findings ∧
      (check shelf plain atDesk).2.store = assorted.noted findings := by
  have hkeyed : assorted.Keyed := by decide
  obtain ⟨hstore, hfindings, -⟩ := check_surveyed shelf plain atDesk hkeyed
  obtain ⟨reply, findings, hcheck, hsurveyed, -⟩ :=
    hfindings rfl (by decide +kernel) (by decide +kernel)
  rw [hcheck] at hstore
  exact ⟨hkeyed, reply, findings, hcheck, hsurveyed, hstore⟩

end Update

end Sinkhole
