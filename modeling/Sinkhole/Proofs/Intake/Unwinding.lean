import Sinkhole.Proofs.Intake.Orders

/-! No intake gets stuck.

A stage only ever waits for what another one is about to do: the reader for room among
the lines, a sorter for a line or for room among the entries, the writer for an entry or
for the last sorter to leave. What makes this so at every point of an intake is `Sound`;
from it follows that some stage can move until all have ended, wherever a stop comes and
whichever batch is refused (`Sound.moves`). The move it finds leaves less to do than there
was (`Stages.toGo`), so the end can be reached from everywhere (`comes_to_end`). What went
wrong on the way is what the intake ends with: a batch that was refused, and only without
one a content that could not be read (`never_stuck`). -/
namespace Sinkhole.Intake

variable {p : Staging} {t : Target} {r : Reading} {s : Store} {meter : Progress}
  {fault : Option String} {x y : Stages} {a b : Sorter} {before after : List Sorter}

/-- All stages have ended. -/
def Stages.Over (x : Stages) : Prop :=
  x.reader.isGone = true ∧ x.Deserted ∧ x.writer = .gone

theorem Stages.Over.concludes (h : x.Over) (t : Target) :
    ∃ ending, x.reader = .gone ending ∧ x.outcome? t = some (concluded t x.written ending) := by
  obtain ⟨hr, hd, hw⟩ := h
  cases hreader : x.reader with
  | reading | offering => rw [hreader] at hr; cases hr
  | gone ending =>
    refine ⟨ending, rfl, ?_⟩
    simp only [Stages.outcome?, hreader, hw, if_pos hd]

/-! ### What holds at every point -/

/-- A sorter is at the memory only if there is one, a memory for no hosts is switched off,
the writer stays until a batch is refused, and the reader has an end of its own only where
the content has it. -/
structure Sound (fault : Option String) (x : Stages) : Prop where
  remembers : ∀ a ∈ x.sorters, a.pending ≠ [] → x.memory.isSome = true
  off : ∀ m, x.memory = some m → m.cap = 0 → m.off = true
  taken : x.writer ≠ .gone → x.written.fault = none
  whole : ∀ lines, x.reader = .gone (.finished lines) →
    fault = none ∨ x.written.fault.isSome = true
  broken : ∀ reason, x.reader = .gone (.failed reason) → fault = some reason

theorem Sorter.onto_pending {filtering : Bool} {e : Option Entry}
    (h : (Sorter.onto filtering e).pending ≠ []) : filtering = true := by
  unfold Sorter.onto at h
  split at h
  · exact absurd rfl h
  · split at h
    · assumption
    · exact absurd rfl h
  · exact absurd rfl h

/-- A memory is for as many hosts as it was, and is not switched on again. -/
theorem Access.lasting {m m' : Memory} (step : Access m a m' b) :
    m'.cap = m.cap ∧ (m.off = true → m'.off = true) := by
  cases step <;> exact ⟨rfl, fun h => by first | exact h | rfl⟩

namespace Sound

theorem start (p : Staging) (t : Target) (r : Reading) (s : Store) (meter : Progress) :
    Sound fault (Stages.start p t r s meter) where
  remembers a ha hpending := by
    rw [List.eq_of_mem_replicate ha] at hpending
    exact absurd rfl hpending
  off m hm hcap := by
    obtain ⟨cap, -, rfl⟩ := Option.map_eq_some_iff.mp hm
    exact beq_iff_eq.mpr hcap
  taken _ := rfl
  whole _ := nofun
  broken _ := nofun

theorem reads (h : Sound fault x) (ho : Orderly x) (step : Reads p fault x y) :
    Sound fault y := by
  cases step with
  | next | halt | offer => exact { h with whole := nofun, broken := nofun }
  | finish _ hwhole => exact { h with whole := fun _ _ => .inl hwhole, broken := nofun }
  | fail _ hbroken =>
    exact { h with whole := nofun, broken := fun reason hr => by cases hr; exact hbroken }
  | hangUp hr hd =>
    refine { h with whole := fun _ _ => .inr ?_, broken := nofun }
    cases hf : x.written.fault with
    | none => exact absurd hd (ho.not_deserted hf (by rw [hr]; rfl))
    | some e => rfl

theorem sorts (h : Sound fault x) (hs : x.sorters = before ++ a :: after)
    (step : Sorts p t x a y b) : Sound fault { y with sorters := before ++ b :: after } := by
  have hothers : (b.pending ≠ [] → x.memory.isSome = true) →
      ∀ c ∈ before ++ b :: after, c.pending ≠ [] → x.memory.isSome = true := by
    intro hb c hc hpending
    rcases mem_swapped hs hc with rfl | hx
    · exact hb hpending
    · exact h.remembers c hx hpending
  cases step with
  | take => exact { h with remembers := hothers Sorter.onto_pending }
  | leave | offer | giveUp => exact { h with remembers := hothers fun hb => absurd rfl hb }
  | @access m m' _ _ hm hstep =>
    obtain ⟨hcap, hoff⟩ := hstep.lasting
    refine { h with remembers := fun _ _ _ => rfl, off := fun n hn hzero => ?_ }
    cases hn
    exact hoff (h.off m hm (hcap ▸ hzero))

theorem writes (h : Sound fault x) (step : Writes p t x y) : Sound fault y := by
  have hstored : ∀ {batch : List Entry}, (writeBatch t x.written batch).fault = none →
      ∀ lines, x.reader = .gone (.finished lines) →
        fault = none ∨ (writeBatch t x.written batch).fault.isSome = true :=
    fun htaken lines hr => .inl ((h.whole lines hr).resolve_right (not_refused htaken))
  cases step with
  | receive hw => exact { h with taken := fun _ => h.taken (by rw [hw]; nofun) }
  | flush _ _ htaken | finish _ _ _ _ htaken =>
    exact { h with taken := fun _ => htaken, whole := hstored htaken }
  | fail => exact { h with taken := fun hw => absurd rfl hw, whole := fun _ _ => .inr rfl }

theorem step (h : Sound fault x) (ho : Orderly x) (step : Step p t fault x y) :
    Sound fault y := by
  cases step with
  | read step => exact h.reads ho step
  | sort hs step => exact h.sorts hs step
  | write step => exact h.writes step

/-- Whatever point an intake has come to, and whatever way. -/
theorem reached (h : Relation.ReflTransGen (Step p t r.fault) (Stages.start p t r s meter) x) :
    Sound r.fault x := by
  induction h with
  | refl => exact .start p t r s meter
  | tail hsteps step ih => exact ih.step (Intake.reached hsteps).1 step

end Sound

/-! ### Some stage can move -/

/-- What an intake is told where it does not decide itself: whether a stop is in force, and why
the storage refuses a batch, if it does. -/
structure Answer where
  halted : Bool
  refusal : Option StoreFault

/-- Why a batch is not taken: the storage refuses it, or nobody owns its items. -/
def Answer.objection (answer : Answer) (t : Target) (w : Written) (batch : List Entry) :
    Option Error :=
  (answer.refusal.map .storage).or (writeBatch t w batch).fault

/-- A step goes as it is told. At a line where a stop is looked for, the reader leaves exactly if
one is in force; and a batch that has something in it is taken exactly if nothing is said
against it. -/
structure Heeds (t : Target) (answer : Answer) (x y : Stages) : Prop where
  stop : ∀ count line rest, x.reader = .reading count (line :: rest) → checkEvery ∣ count + 1 →
    y.reader ≠ x.reader → y.reader.isGone = answer.halted
  batch : ∀ batch, x.writer = .collecting batch → batch ≠ [] → y.writer.batch = [] →
    y.written.fault = answer.objection t x.written batch

/-- A step that stores no batch is not told about one. -/
theorem Heeds.of_writer {answer : Answer} (hw : y.writer = x.writer)
    (stop : ∀ count line rest, x.reader = .reading count (line :: rest) →
      checkEvery ∣ count + 1 → y.reader ≠ x.reader → y.reader.isGone = answer.halted) :
    Heeds t answer x y where
  stop := stop
  batch batch hx hne hy := by
    rw [hw, hx] at hy
    exact absurd hy hne

/-- A sorter at the memory does not wait. -/
theorem Access.possible {m : Memory} (hoff : m.cap = 0 → m.off = true) (ha : a.pending ≠ []) :
    ∃ m' b, Access m a m' b ∧ b ≠ a := by
  cases a with
  | free | holding | gone => exact absurd rfl ha
  | asking h =>
    by_cases hcap : m.cap = 0
    · exact ⟨_, _, .off (hoff hcap), nofun⟩
    · exact ⟨_, _, .on hcap, nofun⟩
  | searching h =>
    by_cases hknown : h ∈ m.seen
    · exact ⟨_, _, .known hknown, nofun⟩
    · exact ⟨_, _, .unknown hknown, nofun⟩
  | counting h =>
    rcases Nat.lt_or_ge m.size m.cap with hroom | hfull
    · exact ⟨_, _, .countIn hroom, nofun⟩
    · exact ⟨_, _, .overfill hfull, nofun⟩
  | writing h =>
    by_cases hknown : h ∈ m.seen
    · exact ⟨_, _, .late hknown, nofun⟩
    · exact ⟨_, _, .write hknown, nofun⟩
  | beaten h => exact ⟨_, _, .countOut, nofun⟩
  | excess h => exact ⟨_, _, .takeBack, nofun⟩
  | closing h =>
    cases hclosed : m.off with
    | true => exact ⟨_, _, .closed hclosed, nofun⟩
    | false => exact ⟨_, _, .close hclosed, nofun⟩
  | emptying h => exact ⟨_, _, .emptied, nofun⟩

/-- A sorter's step is not told anything. -/
theorem Sorts.heeds {answer : Answer} {sorters : List Sorter} (step : Sorts p t x a y b) :
    Heeds t answer x { y with sorters } := by
  cases step <;> exact .of_writer rfl fun _ _ _ _ _ hne => absurd rfl hne

/-- A reader waits only while the queue is full and somebody is there to empty it. -/
theorem Reads.possible (answer : Answer) (hr : x.reader.isGone = false)
    (hroom : x.lines.length < p.lineQueue ∨ x.Deserted) :
    ∃ y, Reads p fault x y ∧ Heeds t answer x y := by
  cases hreader : x.reader with
  | gone => rw [hreader] at hr; cases hr
  | reading count rest =>
    cases rest with
    | cons line rest =>
      by_cases hhalt : checkEvery ∣ count + 1 ∧ answer.halted = true
      · exact ⟨_, .halt hreader hhalt.1, .of_writer rfl fun _ _ _ _ _ _ => hhalt.2.symm⟩
      · refine ⟨_, .next hreader, .of_writer rfl fun _ _ _ hx hdue _ => ?_⟩
        cases hreader.symm.trans hx
        exact (Bool.eq_false_iff.mpr fun hhalted => hhalt ⟨hdue, hhalted⟩).symm
    | nil =>
      have huntold : ∀ y : Stages, y.writer = x.writer → Heeds t answer x y := fun y hw =>
        .of_writer hw fun _ _ _ hx => nomatch hreader.symm.trans hx
      cases hf : fault with
      | none => exact ⟨_, .finish hreader rfl, huntold _ rfl⟩
      | some reason => exact ⟨_, .fail hreader rfl, huntold _ rfl⟩
  | offering count text rest =>
    have huntold : ∀ y : Stages, y.writer = x.writer → Heeds t answer x y := fun y hw =>
      .of_writer hw fun _ _ _ hx => nomatch hreader.symm.trans hx
    by_cases hd : x.Deserted
    · exact ⟨_, .hangUp hreader hd, huntold _ rfl⟩
    · exact ⟨_, .offer hreader (hroom.resolve_right hd) hd, huntold _ rfl⟩

/-- A batch is taken, as it always is with nothing in it, or there is a refusal to fail with. -/
theorem Answer.objection_cases (answer : Answer) {w : Written} (hf : w.fault = none)
    (batch : List Entry) :
    (writeBatch t w batch).fault = none ∧ (batch ≠ [] → answer.objection t w batch = none) ∨
      batch ≠ [] ∧ ∃ refusal, answer.objection t w batch = some (.storage refusal) := by
  cases batch with
  | nil => exact .inl ⟨by simp [writeBatch, hf, Store.insertItems], absurd rfl⟩
  | cons e rest =>
    have hne : e :: rest ≠ [] := List.cons_ne_nil _ _
    cases hr : answer.refusal with
    | some refusal =>
      exact .inr ⟨hne, refusal, by simp only [objection, hr, Option.map_some, Option.or]⟩
    | none =>
      by_cases hk : w.store.knows t.source = true
      · have htaken : (writeBatch t w (e :: rest)).fault = none := by
          simp [writeBatch, hf, Store.insertItems, hk]
        refine .inl ⟨htaken, fun _ => ?_⟩
        simp only [objection, hr, htaken, Option.map_none, Option.or]
      · exact .inr ⟨hne, .unknownOwner, by
          simp [objection, hr, writeBatch, hf, Store.insertItems, hk]⟩

/-- A writer waits only while there is no entry and somebody is there who may have one. -/
theorem Writes.possible (answer : Answer) (hf : x.written.fault = none) (hw : x.writer ≠ .gone)
    (hdue : x.entries ≠ [] ∨ x.Deserted) : ∃ y, Writes p t x y ∧ Heeds t answer x y := by
  cases hwriter : x.writer with
  | gone => exact absurd hwriter hw
  | collecting batch =>
    have hheeds : ∀ y : Stages, y.reader = x.reader →
        (batch ≠ [] → y.written.fault = answer.objection t x.written batch) →
          Heeds t answer x y := fun y hr hbatch =>
      { stop := fun _ _ _ _ _ hne => absurd hr hne
        batch := fun _ hx hne _ => by cases hwriter.symm.trans hx; exact hbatch hne }
    have hverdict := answer.objection_cases (t := t) hf batch
    rcases Nat.lt_or_ge batch.length p.batchSize with hroom | hfull
    · cases hentries : x.entries with
      | cons e rest =>
        refine ⟨_, .receive hwriter hroom hentries, fun _ _ _ _ _ hne => absurd rfl hne, ?_⟩
        intro _ _ _ hnil
        exact absurd hnil (List.append_ne_nil_of_right_ne_nil _ (List.cons_ne_nil _ _))
      | nil =>
        have hd := hdue.resolve_left (absurd hentries)
        rcases hverdict with ⟨htaken, htold⟩ | ⟨hne, refusal, htold⟩
        · exact ⟨_, .finish hwriter hroom hentries hd htaken,
            hheeds _ rfl fun hne => htaken.trans (htold hne).symm⟩
        · exact ⟨_, .fail refusal hwriter (.inr ⟨hentries, hd, hne⟩),
            hheeds _ rfl fun _ => htold.symm⟩
    · rcases hverdict with ⟨htaken, htold⟩ | ⟨hne, refusal, htold⟩
      · exact ⟨_, .flush hwriter hfull htaken,
          hheeds _ rfl fun hne => htaken.trans (htold hne).symm⟩
      · exact ⟨_, .fail refusal hwriter (.inl hfull), hheeds _ rfl fun _ => htold.symm⟩

/-! ### What is left to do -/

/-- The most steps that a sorter takes for its line, but for those that empty the memory. -/
def Sorter.toGo : Sorter → Nat
  | gone => 0
  | free => 1
  | beaten _ => 2
  | holding _ => 4
  | emptying _ | writing _ => 5
  | closing _ => 6
  | excess _ => 7
  | counting _ => 8
  | searching _ => 9
  | asking _ => 10

def Reader.toGo : Reader → Nat
  | gone _ => 0
  | reading _ rest => 12 * rest.length + 1
  | offering _ _ rest => 12 * rest.length + 12

def Writer.toGo : Writer → Nat
  | gone => 0
  | collecting batch => batch.length + 1

def sortersToGo : List Sorter → Nat
  | [] => 0
  | a :: rest => a.toGo + sortersToGo rest

/-- The part of one sorter, apart from the others. -/
theorem sortersToGo_swap (before after : List Sorter) (a : Sorter) :
    sortersToGo (before ++ a :: after) = sortersToGo (before ++ after) + a.toGo := by
  induction before with
  | nil => exact Nat.add_comm _ _
  | cons b before ih =>
    simp only [List.cons_append, sortersToGo, ih]
    omega

/-- A bound on the steps an intake can still take, but for those that empty the memory: each
line and each entry counts for the steps it will cost from where it is. -/
def Stages.toGo (x : Stages) : Nat :=
  x.reader.toGo + 10 * x.lines.length + sortersToGo x.sorters + 2 * x.entries.length +
    x.writer.toGo

theorem Sorter.onto_toGo (filtering : Bool) (e : Option Entry) :
    (Sorter.onto filtering e).toGo ≤ 10 := by
  unfold Sorter.onto
  split
  · exact Nat.le_of_ble_eq_true rfl
  · split <;> exact Nat.le_of_ble_eq_true rfl
  · exact Nat.le_of_ble_eq_true rfl

theorem Reads.toGo_lt (step : Reads p fault x y) : y.toGo < x.toGo := by
  cases step with
  | next hr | halt hr | finish hr | fail hr | offer hr | hangUp hr =>
    simp only [Stages.toGo, hr, Reader.toGo, List.length_append, List.length_cons, List.length_nil]
    omega

theorem Writes.toGo_lt (step : Writes p t x y) : y.toGo < x.toGo := by
  cases step with
  | receive hw _ he =>
    simp only [Stages.toGo, hw, he, Writer.toGo, List.length_append, List.length_cons,
      List.length_nil]
    omega
  | flush hw hfull =>
    have := p.batchSize_pos
    simp only [Stages.toGo, Stages.store, hw, Writer.toGo, List.length_nil]
    omega
  | finish hw | fail _ hw =>
    simp only [Stages.toGo, Stages.store, hw, Writer.toGo]
    omega

/-- A sorter that does not go on emptying the memory is nearer its end. -/
theorem Sorts.toGo_lt (hs : x.sorters = before ++ a :: after) (step : Sorts p t x a y b)
    (hba : ∀ host, a = .emptying host → b ≠ a) :
    Stages.toGo { y with sorters := before ++ b :: after } < x.toGo := by
  simp only [Stages.toGo, hs, sortersToGo_swap]
  cases step with
  | @take text rest hl =>
    have := Sorter.onto_toGo x.memory.isSome (t.read text)
    have : (Sorter.free).toGo = 1 := rfl
    simp only [hl, List.length_cons]
    omega
  | leave | giveUp => simp only [Sorter.toGo]; omega
  | offer =>
    simp only [Sorter.toGo, List.length_append, List.length_cons, List.length_nil]
    omega
  | access _ hstep =>
    cases hstep with
    | empty => exact absurd rfl (hba _ rfl)
    | _ => simp only [Sorter.toGo]; omega

/-! ### Until all have ended -/

/-- **Some stage can move until all have ended**, whatever it is told, and get nearer the end. -/
theorem Sound.moves (h : Sound fault x) (answer : Answer) :
    x.Over ∨ ∃ y, Step p t fault x y ∧ Heeds t answer x y ∧ y.toGo < x.toGo := by
  have hreader : x.reader.isGone = false → (x.lines.length < p.lineQueue ∨ x.Deserted) →
      ∃ y, Step p t fault x y ∧ Heeds t answer x y ∧ y.toGo < x.toGo := by
    intro hr hroom
    obtain ⟨y, step, hheeds⟩ : ∃ y, Reads p fault x y ∧ Heeds t answer x y :=
      Reads.possible answer hr hroom
    exact ⟨y, .read step, hheeds, step.toGo_lt⟩
  have hwriter : x.writer ≠ .gone → (x.entries ≠ [] ∨ x.Deserted) →
      ∃ y, Step p t fault x y ∧ Heeds t answer x y ∧ y.toGo < x.toGo := by
    intro hw hdue
    obtain ⟨y, step, hheeds⟩ : ∃ y, Writes p t x y ∧ Heeds t answer x y :=
      Writes.possible answer (h.taken hw) hw hdue
    exact ⟨y, .write step, hheeds, step.toGo_lt⟩
  by_cases hd : x.Deserted
  · -- with no sorter left neither of the others waits any more
    cases hr : x.reader.isGone with
    | false => exact .inr (hreader hr (.inr hd))
    | true =>
      by_cases hw : x.writer = .gone
      · exact .inl ⟨hr, hd, hw⟩
      · exact .inr (hwriter hw (.inr hd))
  refine .inr ?_
  obtain ⟨a, ha, hgone⟩ : ∃ a ∈ x.sorters, a ≠ .gone := by
    simpa only [Stages.Deserted, not_forall, exists_prop] using hd
  obtain ⟨before, after, hs⟩ := List.append_of_mem ha
  have hsorter : ∀ {y b}, Sorts p t x a y b → (∀ host, a = .emptying host → b ≠ a) →
      ∃ y, Step p t fault x y ∧ Heeds t answer x y ∧ y.toGo < x.toGo :=
    fun step hba => ⟨_, .sort hs step, step.heeds, step.toGo_lt hs hba⟩
  by_cases hpending : a.pending = []
  case neg =>
    obtain ⟨m, hm⟩ := Option.isSome_iff_exists.mp (h.remembers a ha hpending)
    obtain ⟨m', b, hstep, hba⟩ := Access.possible (h.off m hm) hpending
    exact hsorter (.access hm hstep) fun _ _ => hba
  case pos =>
    cases a with
    | gone => exact absurd rfl hgone
    | free =>
      cases hl : x.lines with
      | cons text rest => exact hsorter (.take hl) nofun
      | nil =>
        cases hr : x.reader.isGone with
        | true => exact hsorter (.leave hl hr) nofun
        | false => exact hreader hr (.inl (by rw [hl]; exact p.lineQueue_pos))
    | holding e =>
      by_cases hw : x.writer = .gone
      · exact hsorter (.giveUp hw) nofun
      · by_cases hroom : x.entries.length < p.entryQueue
        · exact hsorter (.offer hroom hw) nofun
        · refine hwriter hw (.inl fun hnil => hroom ?_)
          rw [hnil]
          exact p.entryQueue_pos
    | _ => exact absurd hpending (List.cons_ne_nil _ _)

/-- From every point of an intake its end can be reached, with whatever it is told on the way. -/
theorem comes_to_end
    (h : Relation.ReflTransGen (Step p t r.fault) (Stages.start p t r s meter) x)
    (answers : Stages → Answer) :
    ∃ y, Relation.ReflTransGen (fun a b => Step p t r.fault a b ∧ Heeds t (answers a) a b) x y ∧
      y.Over := by
  induction hn : x.toGo using Nat.strongRecOn generalizing x with
  | ind n ih =>
    rcases (Sound.reached h).moves (p := p) (t := t) (answers x) with
      hover | ⟨y, step, hheeds, hlt⟩
    · exact ⟨x, .refl, hover⟩
    · obtain ⟨z, hsteps, hover⟩ := ih y.toGo (hn ▸ hlt) (h.tail step) rfl
      exact ⟨z, .head ⟨step, hheeds⟩ hsteps, hover⟩

/-! ### How it ends -/

/-- A batch that was refused stays the reason. -/
theorem Step.refused (h : Sound fault x) (step : Step p t fault x y) {e : Error}
    (he : x.written.fault = some e) : y.written.fault = some e := by
  cases step with
  | read step => cases step <;> exact he
  | sort _ step => cases step <;> exact he
  | write step =>
    cases step with
    | receive => exact he
    | flush _ _ htaken | finish _ _ _ _ htaken =>
      rw [(writeBatch_taken htaken).1] at he
      cases he
    | fail _ hw =>
      rw [h.taken (by rw [hw]; nofun)] at he
      cases he

/-- The storage refuses a batch in a step. -/
def Refuses (p : Staging) (t : Target) (fault : Option String) (refusal : StoreFault)
    (x y : Stages) : Prop :=
  Step p t fault x y ∧ x.written.fault = none ∧ y.written.fault = some (.storage refusal)

/-- A step that leaves a reason for failing has it from the storage. -/
theorem Step.refuses (step : Step p t fault x y) (hx : x.written.fault = none) {e : Error}
    (he : y.written.fault = some e) : ∃ refusal, e = .storage refusal ∧
      Refuses p t fault refusal x y := by
  have hstep := step
  cases step with
  | read step => cases step <;> exact absurd (hx.symm.trans he) nofun
  | sort _ step => cases step <;> exact absurd (hx.symm.trans he) nofun
  | write step =>
    cases step with
    | receive => exact absurd (hx.symm.trans he) nofun
    | flush _ _ htaken | finish _ _ _ _ htaken => exact absurd (htaken.symm.trans he) nofun
    | fail refusal => cases he; exact ⟨refusal, rfl, hstep, hx, rfl⟩

/-- Somewhere on the way from the start to `x` the storage refused a batch. -/
def Refused (p : Staging) (t : Target) (r : Reading) (s : Store) (meter : Progress)
    (refusal : StoreFault) (x : Stages) : Prop :=
  ∃ y z, Relation.ReflTransGen (Step p t r.fault) (Stages.start p t r s meter) y ∧
    Refuses p t r.fault refusal y z ∧ Relation.ReflTransGen (Step p t r.fault) z x

theorem Refused.remembered {refusal : StoreFault} (h : Refused p t r s meter refusal x) :
    x.written.fault = some (.storage refusal) := by
  obtain ⟨y, z, hbefore, ⟨hstep, -, hz⟩, hafter⟩ := h
  induction hafter with
  | refl => exact hz
  | tail hsteps step ih =>
    exact step.refused (Sound.reached ((hbefore.tail hstep).trans hsteps)) ih

/-- A reason for failing that is there has come from the storage on the way. -/
theorem refused_of_fault
    (h : Relation.ReflTransGen (Step p t r.fault) (Stages.start p t r s meter) x) {e : Error}
    (he : x.written.fault = some e) : ∃ refusal, Refused p t r s meter refusal x := by
  induction h generalizing e with
  | refl => cases he
  | @tail y z hsteps step ih =>
    cases hy : y.written.fault with
    | none =>
      obtain ⟨refusal, -, hrefuses⟩ := step.refuses hy he
      exact ⟨refusal, y, z, hsteps, hrefuses, .refl⟩
    | some e' =>
      obtain ⟨refusal, y', z', hbefore, hrefuses, hafter⟩ := ih hy
      exact ⟨refusal, y', z', hbefore, hrefuses, hafter.tail step⟩

/-- **No intake gets stuck, and it ends with what went wrong on the way.** At every point all
stages have ended or some stage can move, wherever a stop comes and whichever batch the storage
refuses, and the end is within reach. When all have ended, the intake ends with the refusal of a
batch if there was one, and if there was none, with the failure of a content that could not be
read, unless the reader had been stopped before it came to that. -/
theorem never_stuck
    (h : Relation.ReflTransGen (Step p t r.fault) (Stages.start p t r s meter) x) :
    (∀ answer, x.Over ∨ ∃ y, Step p t r.fault x y ∧ Heeds t answer x y) ∧
      (∀ answers : Stages → Answer, ∃ y, Relation.ReflTransGen
        (fun a b => Step p t r.fault a b ∧ Heeds t (answers a) a b) x y ∧ y.Over) ∧
      (x.Over →
        (∀ refusal, Refused p t r s meter refusal x →
          x.outcome? t = some (.error (.storage refusal))) ∧
        ((∀ refusal, ¬ Refused p t r s meter refusal x) →
          ∀ reason, r.fault = some reason → (∃ lines, x.reader = .gone (.stopped lines)) ∨
            x.outcome? t = some (.error (.parseFailure t.label reason)))) := by
  have hsound := Sound.reached h
  refine ⟨fun answer => (hsound.moves answer).imp_right
      fun ⟨y, step, hheeds, _⟩ => ⟨y, step, hheeds⟩,
    comes_to_end h, fun hover => ?_⟩
  obtain ⟨ending, hreader, hends⟩ := hover.concludes t
  refine ⟨fun refusal hrefused => ?_, fun hnone reason hreason => ?_⟩
  · simp only [hends, concluded, hrefused.remembered]
  · have hfault : x.written.fault = none := by
      by_contra hsome
      obtain ⟨e, he⟩ := Option.ne_none_iff_exists'.mp hsome
      obtain ⟨refusal, hrefused⟩ := refused_of_fault h he
      exact hnone refusal hrefused
    cases ending with
    | stopped lines => exact .inl ⟨lines, hreader⟩
    | finished lines =>
      rcases hsound.whole lines hreader with hwhole | hrefused
      · rw [hreason] at hwhole
        cases hwhole
      · rw [hfault] at hrefused
        cases hrefused
    | failed reason' =>
      have hsame := hsound.broken reason' hreader
      rw [hreason] at hsame
      cases hsame
      exact .inr (by simp only [hends, concluded, hfault])

/-- One sorter, and room for one of everything. -/
def narrow : Staging where
  batchSize := 1
  sorters := 1
  lineQueue := 1
  entryQueue := 1
  batchSize_pos := Nat.succ_pos _
  sorters_pos := Nat.succ_pos _
  lineQueue_pos := Nat.succ_pos _
  entryQueue_pos := Nat.succ_pos _

/-- A content that breaks off in its second line. -/
def cutOff : Reading := { bytes := "ads.example\nads".toUTF8.toList, fault := some "reset" }

/-- The first batch of a content is refused, and the content breaks off as well. -/
theorem never_stuck_refused : ∃ x,
    Relation.ReflTransGen (Step narrow (.of adList 1) cutOff.fault)
      (Stages.start narrow (.of adList 1) cutOff oneListed {}) x ∧
    Refused narrow (.of adList 1) cutOff oneListed {} .unknownOwner x ∧ x.Over ∧
    x.outcome? (.of adList 1) = some (.error (.storage .unknownOwner)) := by
  have hlines : chunks cutOff = ["ads.example".toUTF8.toList] := by decide +kernel
  have hentry : Sorter.onto false ((Target.of adList 1).read (lineText "ads.example".toUTF8.toList)) =
      .holding (.blocked "ads.example") := by decide +kernel
  obtain ⟨y, z, hbefore, hrefuses⟩ : ∃ y z,
      Relation.ReflTransGen (Step narrow (.of adList 1) cutOff.fault)
        (Stages.start narrow (.of adList 1) cutOff oneListed {}) y ∧
      Refuses narrow (.of adList 1) cutOff.fault .unknownOwner y z := by
    rw [Stages.start, hlines]
    refine ⟨_, _, .head (.read (.next rfl)) <| .head (.read (.offer rfl (by decide) (by decide))) <|
      .head (.first rfl (.take rfl)) <| .head (.first (congrArg (· :: []) hentry)
        (.offer (by decide) (by decide))) <| .single (.write (.receive rfl (by decide) rfl)),
      .write (.fail .unknownOwner rfl (.inl (by decide))), rfl, rfl⟩
  obtain ⟨x, htold, hover⟩ := comes_to_end (hbefore.tail hrefuses.1) fun _ => ⟨false, none⟩
  have hafter := Relation.ReflTransGen.mono (fun _ _ => And.left) _ _ htold
  have hsteps := (hbefore.tail hrefuses.1).trans hafter
  have hrefused : Refused narrow (.of adList 1) cutOff oneListed {} .unknownOwner x :=
    ⟨y, z, hbefore, hrefuses, hafter⟩
  exact ⟨x, hsteps, hrefused, hover, ((never_stuck hsteps).2.2 hover).1 _ hrefused⟩

end Sinkhole.Intake
