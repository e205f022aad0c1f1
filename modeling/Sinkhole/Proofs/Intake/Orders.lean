import Sinkhole.Proofs.Intake.Stages

/-! The orders in which the stages of an intake can work.

In the simplest of them every line is done with before the next one is read: one
sorter does all the work, and what it remembers is what `Sightings` tell
(`Memory.Holds.alone`). An intake that goes on like this ends as `run` says
(`run_reached`). In whatever other order they work, an intake that comes to the end of
its content stores the same entries, but for the order they are in and for how often a
host that repeats is held back (`completed`). These two are what an `Arrival` settles, and
at a fitting one `run` comes to the same (`completed_run`). -/
namespace Sinkhole.Intake

variable {p : Staging} {t : Target} {fault : Option String}

/-- A step of the first sorter. -/
theorem Step.first {x y : Stages} {a b : Sorter} {others : List Sorter}
    (hs : x.sorters = a :: others) (step : Sorts p t x a y b) :
    Step p t fault x { y with sorters := b :: others } :=
  .sort (show x.sorters = [] ++ a :: others from hs) step

/-! ### One sorter at the memory -/

/-- A memory that holds what sightings do. -/
structure Memory.Holds (m : Memory) (g : Sightings) : Prop where
  cap : m.cap = g.cap
  off : m.off = !g.filtering
  positive : g.filtering = true → m.cap ≠ 0
  seen : g.filtering = true → m.seen = g.seen
  size : g.filtering = true → m.size = g.seen.length

theorem Memory.start_holds (cap : Nat) : (Memory.start cap).Holds (Sightings.start cap) := by
  refine ⟨rfl, ?_, fun h => ?_, fun _ => rfl, fun _ => rfl⟩
  · simp [start, Sightings.start, bne]
  · simpa [start, Sightings.start] using h

/-- Accesses of one sorter, with no other in between. -/
inductive Alone : Memory → Sorter → Memory → Sorter → Prop where
  | refl {m a} : Alone m a m a
  | tail {m m' m'' a b c} : Alone m a m' b → Access m' b m'' c → Alone m a m'' c

/-- **A sorter that is alone with the memory decides as sightings do.** -/
theorem Memory.Holds.alone {m : Memory} {g : Sightings} (h : m.Holds g) (host : String) :
    ∃ m', m'.Holds (g.sight host).2 ∧
      Alone m (.asking host) m'
        (if (g.sight host).1 then .holding (.blocked host) else .free) := by
  cases hf : g.filtering with
  | false =>
    have hoff : m.off = true := by rw [h.off, hf]; rfl
    rw [Sightings.sight_off hf]
    exact ⟨m, h, .tail .refl (.off hoff)⟩
  | true =>
    have hoff : m.off = false := by rw [h.off, hf]; rfl
    have hsearch : Alone m (.asking host) m (.searching host) :=
      .tail .refl (.on (h.positive hf))
    by_cases hs : host ∈ m.seen
    · rw [Sightings.sight_known hf (h.seen hf ▸ hs)]
      exact ⟨m, h, hsearch.tail (.known hs)⟩
    · have hcount := hsearch.tail (.unknown hs)
      by_cases hc : m.cap ≤ m.size
      · have hfull : g.cap ≤ g.seen.length := by rw [← h.size hf, ← h.cap]; exact hc
        rw [Sightings.sight_full hf (h.seen hf ▸ hs) hfull]
        refine ⟨_, ?_, (((hcount.tail (.overfill hc)).tail .takeBack).tail (.close hoff)).tail
          .emptied⟩
        exact ⟨h.cap, rfl, nofun, nofun, nofun⟩
      · have hroom : ¬ g.cap ≤ g.seen.length := by rw [← h.size hf, ← h.cap]; exact hc
        rw [Sightings.sight_new hf (h.seen hf ▸ hs) hroom]
        refine ⟨_, ?_, (hcount.tail (.countIn (Nat.lt_of_not_le hc))).tail (.write hs)⟩
        exact ⟨h.cap, h.off, h.positive, fun _ => congrArg _ (h.seen hf),
          fun _ => congrArg (· + 1) (h.size hf)⟩

/-- Those accesses as steps of the intake. -/
theorem Alone.steps {m m' : Memory} {a b : Sorter} (h : Alone m a m' b) (x : Stages)
    (others : List Sorter) :
    Relation.ReflTransGen (Step p t fault)
      { x with memory := some m, sorters := a :: others }
      { x with memory := some m', sorters := b :: others } := by
  induction h with
  | refl => exact .refl
  | tail _ step ih => exact ih.tail (.first rfl (.access rfl step))

/-! ### One line after the other -/

/-- A memory that holds what sightings do, if there is one at all. -/
inductive Remembers : Option Memory → Option Sightings → Prop where
  | nothing : Remembers none none
  | hosts {m g} (holds : m.Holds g) : Remembers (some m) (some g)

theorem Remembers.start (cap : Option Nat) :
    Remembers (cap.map Memory.start) (cap.map Sightings.start) := by
  cases cap with
  | none => exact .nothing
  | some c => exact .hosts (Memory.start_holds c)

/-- The writer's part of an intake: its batch, what is stored, and what was counted. -/
structure Desk where
  batch : List Entry
  written : Written
  meter : Progress

/-- A desk where there is room in the batch and nothing was refused. -/
structure Desk.Ready (d : Desk) (p : Staging) (t : Target) : Prop where
  room : d.batch.length < p.batchSize
  fault : d.written.fault = none
  knows : d.written.store.knows t.source = true

/-- Stores the batch. -/
def Desk.clear (d : Desk) (t : Target) : Desk :=
  { batch := [], written := writeBatch t d.written d.batch,
    meter := d.meter.addHosts d.batch.length }

/-- Puts an entry into the batch, and stores it when it is full. -/
def Desk.receive (d : Desk) (p : Staging) (t : Target) (e : Entry) : Desk :=
  let d := { d with batch := d.batch ++ [e] }
  if p.batchSize ≤ d.batch.length then d.clear t else d

/-- An intake where nothing is on its way, with one sorter apart. -/
def Stages.idle (reader : Reader) (a : Sorter) (others : List Sorter) (m : Option Memory)
    (d : Desk) : Stages where
  reader
  sorters := a :: others
  memory := m
  writer := .collecting d.batch
  written := d.written
  progress := d.meter

variable {reader : Reader} {others : List Sorter} {m : Option Memory} {d : Desk}

/-- An entry that a sorter holds goes to the desk. -/
theorem Stages.pass (hd : d.Ready p t) (e : Entry) :
    Relation.ReflTransGen (Step p t fault) (idle reader (.holding e) others m d)
      (idle reader .free others m (d.receive p t e)) := by
  refine .head (.first rfl (.offer p.entryQueue_pos nofun)) ?_
  refine .head (.write (.receive rfl hd.room rfl)) ?_
  unfold Desk.receive
  by_cases hfull : p.batchSize ≤ (d.batch ++ [e]).length
  · rw [if_pos hfull]
    refine .single (.write (.flush rfl hfull ?_))
    exact (writeBatch_ok t _ hd.fault hd.knows).1
  · rw [if_neg hfull]
    exact .refl

/-- What a desk does with entries, whatever comes after them: it ends up as it would have with
all of them together, and the meter counts what is stored. -/
structure Desk.Takes (d : Desk) (p : Staging) (t : Target) (g : Option Sightings)
    (entries : List Entry) (g' : Option Sightings) (d' : Desk) : Prop where
  ready : d'.Ready p t
  counts : ∃ n, d'.meter = d.meter.addHosts n ∧ d'.written.inserted = d.written.inserted + n
  onward : ∀ later, (batches p.batchSize d.batch (admitted g (entries ++ later))).foldl
      (writeBatch t) d.written =
    (batches p.batchSize d'.batch (admitted g' later)).foldl (writeBatch t) d'.written

namespace Desk.Takes

variable {g g' g'' : Option Sightings} {d' d'' : Desk} {entries more : List Entry}

theorem nothing (hd : d.Ready p t) (g : Option Sightings) : d.Takes p t g [] g d :=
  ⟨hd, ⟨0, rfl, rfl⟩, fun _ => rfl⟩

theorem append (h : d.Takes p t g entries g' d') (h' : d'.Takes p t g' more g'' d'') :
    d.Takes p t g (entries ++ more) g'' d'' := by
  obtain ⟨n, hmeter, hinserted⟩ := h.counts
  obtain ⟨n', hmeter', hinserted'⟩ := h'.counts
  refine ⟨h'.ready, ⟨n + n', ?_, by omega⟩, fun later => ?_⟩
  · rw [hmeter', hmeter]
    simp only [Progress.addHosts, Progress.modify, Nat.add_assoc]
  · rw [List.append_assoc, h.onward, h'.onward]

/-- An entry that is let through. -/
theorem received (hd : d.Ready p t) {e : Entry}
    (hg : ∀ later, admitted g (e :: later) = e :: admitted g' later) :
    d.Takes p t g [e] g' (d.receive p t e) := by
  have honward : ∀ later, batches p.batchSize d.batch (admitted g ([e] ++ later)) =
      if p.batchSize ≤ (d.batch ++ [e]).length
      then (d.batch ++ [e]) :: batches p.batchSize [] (admitted g' later)
      else batches p.batchSize (d.batch ++ [e]) (admitted g' later) := by
    intro later
    rw [List.singleton_append, hg, batches]
  unfold Desk.receive
  by_cases hfull : p.batchSize ≤ (d.batch ++ [e]).length
  · obtain ⟨hfault, hstore⟩ := writeBatch_ok t (d.batch ++ [e]) hd.fault hd.knows
    obtain ⟨-, hinserted, -⟩ := writeBatch_taken hfault
    simp only [if_pos hfull] at honward ⊢
    refine ⟨⟨p.batchSize_pos, hfault, ?_⟩, ⟨_, rfl, hinserted⟩, fun later => ?_⟩
    · exact (congrArg (Store.knows · t.source) hstore).trans hd.knows
    · rw [honward, List.foldl_cons]
      rfl
  · simp only [if_neg hfull] at honward ⊢
    refine ⟨⟨Nat.lt_of_not_le hfull, hd.fault, hd.knows⟩, ⟨0, rfl, rfl⟩, fun later => ?_⟩
    rw [honward]

/-- A host that is held back. -/
theorem heldBack (hd : d.Ready p t) {e : Entry}
    (hg : ∀ later, admitted g (e :: later) = admitted g' later) : d.Takes p t g [e] g' d :=
  ⟨hd, ⟨0, rfl, rfl⟩, fun later => by rw [List.singleton_append, hg]⟩

end Desk.Takes

/-- A sorter that has read an entry decides about it and hands it on if it is let through. -/
theorem Stages.entry {g : Option Sightings} (hm : Remembers m g) (hd : d.Ready p t) (e : Entry) :
    ∃ m' g' d', Relation.ReflTransGen (Step p t fault)
        (idle reader (.onto m.isSome (some e)) others m d) (idle reader .free others m' d') ∧
      Remembers m' g' ∧ d.Takes p t g [e] g' d' := by
  cases hm with
  | nothing =>
    refine ⟨none, none, d.receive p t e, ?_, .nothing, ?_⟩
    · cases e <;> exact pass hd _
    · exact .received hd fun later => by rw [admitted_none, admitted_none]
  | @hosts m g hm =>
    cases e with
    | allowed pattern =>
      exact ⟨_, _, _, pass hd _, .hosts hm, .received hd fun _ => rfl⟩
    | redirected host target =>
      exact ⟨_, _, _, pass hd _, .hosts hm, .received hd fun _ => rfl⟩
    | blocked host =>
      obtain ⟨m', hm', halone⟩ := hm.alone host
      have hsteps : Relation.ReflTransGen (Step p t fault) _ _ :=
        halone.steps (idle reader .free others none d) others
      refine ⟨some m', some (g.sight host).2, ?_⟩
      cases hfirst : (g.sight host).1 with
      | true =>
        rw [hfirst, if_pos rfl] at hsteps
        refine ⟨_, hsteps.trans (pass hd _), .hosts hm', .received hd fun later => ?_⟩
        rw [admitted_blocked, hfirst, if_pos rfl]
      | false =>
        rw [hfirst, if_neg Bool.false_ne_true] at hsteps
        refine ⟨_, hsteps, .hosts hm', .heldBack hd fun later => ?_⟩
        rw [admitted_blocked, hfirst, if_neg Bool.false_ne_true]

/-- Lines from reading the first of them to what becomes of the last. -/
theorem Stages.handed (fault : Option String) (others : List Sorter) {g : Option Sightings}
    (hm : Remembers m g) (hd : d.Ready p t) (count : Nat) (lines rest : List (List UInt8)) :
    ∃ m' g' d', Relation.ReflTransGen (Step p t fault)
        (idle (.reading count (lines ++ rest)) .free others m d)
        (idle (.reading (count + lines.length) rest) .free others m' d') ∧
      Remembers m' g' ∧ d.Takes p t g (lines.filterMap t.classify) g' d' := by
  induction lines generalizing count m g d with
  | nil => exact ⟨m, g, d, .refl, hm, .nothing hd g⟩
  | cons line lines ih =>
    have hread : Relation.ReflTransGen (Step p t fault)
        (idle (.reading count (line :: lines ++ rest)) .free others m d)
        (idle (.reading (count + 1) (lines ++ rest)) (.onto m.isSome (t.classify line))
          others m d) := by
      refine .head (.read (.next rfl)) (.head (.read (.offer rfl p.lineQueue_pos ?_)) ?_)
      · intro hdes
        cases hdes .free (List.mem_cons_self ..)
      · exact .single (.first rfl (.take rfl))
    rw [filterMap_cons_toList, List.length_cons, Nat.add_comm lines.length, ← Nat.add_assoc]
    cases he : t.classify line with
    | none =>
      rw [he] at hread
      obtain ⟨m', g', d', hsteps, hm', htakes⟩ := ih hm hd (count + 1)
      exact ⟨m', g', d', hread.trans hsteps, hm', htakes⟩
    | some e =>
      rw [he] at hread
      obtain ⟨m₁, g₁, d₁, hentry, hm₁, htakes₁⟩ := entry hm hd e
      obtain ⟨m', g', d', hsteps, hm', htakes⟩ := ih hm₁ htakes₁.ready (count + 1)
      exact ⟨m', g', d', hread.trans (hentry.trans hsteps), hm', htakes₁.append htakes⟩

/-! ### The end -/

/-- Once the reader has gone, the sorters leave one after the other. -/
theorem Stages.leave (p : Staging) (t : Target) (fault : Option String) {x : Stages}
    (hl : x.lines = []) (hr : x.reader.isGone = true) (left n : Nat)
    (hs : x.sorters = List.replicate left .gone ++ List.replicate n .free) :
    Relation.ReflTransGen (Step p t fault) x
      { x with sorters := List.replicate (left + n) .gone } := by
  induction n generalizing left x with
  | zero =>
    rw [List.replicate_zero, List.append_nil] at hs
    rw [Nat.add_zero, ← hs]
  | succ n ih =>
    have hnext : List.replicate left Sorter.gone ++ .gone :: List.replicate n .free =
        List.replicate (left + 1) .gone ++ List.replicate n .free := by
      rw [List.replicate_succ', List.append_assoc, List.singleton_append]
    rw [show left + (n + 1) = left + 1 + n by omega]
    exact .head (.sort hs (.leave hl hr)) (@ih
      { x with sorters := List.replicate left .gone ++ .gone :: List.replicate n .free }
      hl hr (left + 1) hnext)

/-- Where reading ends, the reader can go with that ending; what has not been handed on by then is
not read any more. -/
theorem deliver_ends (halted : Nat → Bool) (r : Reading) :
    ∃ rest, chunks r = (deliver halted r).1 ++ rest ∧
      ∀ x : Stages, x.reader = .reading (deliver halted r).1.length rest →
        Reads p r.fault x { x with reader := .gone (deliver halted r).2 } := by
  unfold deliver
  dsimp only
  cases hl : haltLine? halted (chunks r).length with
  | some n =>
    obtain ⟨i, hi, rfl⟩ := List.mem_map.mp (List.mem_of_find?_eq_some hl)
    have hle : (i + 1) * checkEvery ≤ (chunks r).length := by
      have hi := List.mem_range.mp hi
      exact (Nat.le_div_iff_mul_le (by decide)).mp hi
    have hpos : 0 < (i + 1) * checkEvery := Nat.mul_pos (Nat.succ_pos i) (by decide)
    obtain ⟨line, rest, hrest⟩ := List.exists_cons_of_length_pos
      (l := (chunks r).drop ((i + 1) * checkEvery - 1)) (by rw [List.length_drop]; omega)
    refine ⟨line :: rest, by rw [← hrest, List.take_append_drop], fun x hx => ?_⟩
    have hcount : (List.take ((i + 1) * checkEvery - 1) (chunks r)).length + 1 =
        (i + 1) * checkEvery := by
      rw [List.length_take]
      omega
    have hdue : checkEvery ∣ (List.take ((i + 1) * checkEvery - 1) (chunks r)).length + 1 := by
      rw [hcount]
      exact Nat.dvd_mul_left _ _
    have hhalt : Reads p r.fault x _ := .halt hx hdue
    rwa [hcount] at hhalt
  | none =>
    cases hr : r.fault with
    | none => exact ⟨[], (List.append_nil _).symm, fun x hx => .finish hx rfl⟩
    | some reason => exact ⟨[], (List.append_nil _).symm, fun x hx => .fail hx rfl⟩

theorem run_concluded (settings : Settings) (t : Target) (halted : Nat → Bool) (r : Reading)
    (s : Store) :
    let w := (batches (max settings.batchSize 1) []
      (admitted (settings.dedupCap.map Sightings.start)
        ((deliver halted r).1.filterMap t.classify))).foldl (writeBatch t)
      { store := s.clearItems t.source (some t.generation) }
    run settings t halted r s = ⟨concluded t w (deliver halted r).2, w.store, w.inserted⟩ := rfl

/-- A desk with nothing more to come stores what it has. -/
theorem Desk.Ready.last (hd : d.Ready p t) (g : Option Sightings) :
    (batches p.batchSize d.batch (admitted g [])).foldl (writeBatch t) d.written =
      writeBatch t d.written d.batch := by
  have hnone : admitted g [] = [] := by cases g <;> rfl
  rw [hnone, batches]
  cases hb : d.batch with
  | nil =>
    rw [writeBatch, hd.fault]
    have hf := hd.fault
    cases hw : d.written with
    | mk store inserted fault =>
      rw [hw] at hf
      cases hf
      rfl
  | cons e rest => rfl

/-- The reader goes, the sorters leave, and the writer stores what it has. -/
theorem Stages.close {x : Stages} {ending : End} {n : Nat} (hd : d.Ready p t)
    (hx : x = idle reader .free (List.replicate n .free) m d)
    (hread : Reads p fault x { x with reader := .gone ending }) :
    ∃ y, Relation.ReflTransGen (Step p t fault) x y ∧
      y.outcome? t = some (concluded t (writeBatch t d.written d.batch) ending) ∧
      y.written = writeBatch t d.written d.batch ∧
      y.progress = d.meter.addHosts d.batch.length := by
  subst hx
  have hdeserted : ∀ a ∈ List.replicate (0 + (n + 1)) Sorter.gone, a = .gone :=
    fun a ha => List.eq_of_mem_replicate ha
  have hleave := leave p t fault
    (x := { idle reader .free (List.replicate n .free) m d with reader := .gone ending })
    rfl rfl 0 (n + 1) (by rw [List.replicate_succ]; rfl)
  have hstored := Writes.finish (p := p) (t := t)
    (x := { idle (.gone ending) .free (List.replicate n .free) m d with
      sorters := List.replicate (0 + (n + 1)) .gone })
    rfl hd.room rfl hdeserted (writeBatch_ok t d.batch hd.fault hd.knows).1
  refine ⟨_, (Relation.ReflTransGen.head (.read hread) hleave).tail (.write hstored), ?_, rfl, rfl⟩
  exact if_pos hdeserted

/-- **The order in which every line is done with before the next is one of those in which the
stages can work**, and an intake that goes on like this ends as `run` says, whether reading comes
to its end, breaks off or is stopped. -/
theorem run_reached (p : Staging) (t : Target) (halted : Nat → Bool) (r : Reading) (s : Store)
    (meter : Progress) (hk : s.knows t.source = true) :
    ∃ x, Relation.ReflTransGen (Step p t r.fault) (Stages.start p t r s meter) x ∧
      x.outcome? t = some (run ⟨p.batchSize, p.dedupCap⟩ t halted r s).outcome ∧
      x.written.store = (run ⟨p.batchSize, p.dedupCap⟩ t halted r s).store ∧
      x.progress = meter.addHosts (run ⟨p.batchSize, p.dedupCap⟩ t halted r s).counted := by
  obtain ⟨n, hn⟩ : ∃ n, p.sorters = n + 1 := ⟨p.sorters - 1, by have := p.sorters_pos; omega⟩
  obtain ⟨rest, hrest, hread⟩ := deliver_ends (p := p) halted r
  let d : Desk := ⟨[], { store := s.clearItems t.source (some t.generation) }, meter⟩
  obtain ⟨m', g', d', hhanded, -, htakes⟩ := Stages.handed r.fault (List.replicate n .free)
    (Remembers.start p.dedupCap) (d := d) ⟨p.batchSize_pos, rfl, hk⟩ 0 (deliver halted r).1 rest
  rw [Nat.zero_add] at hhanded
  obtain ⟨x, hclose, houtcome, hwritten, hprogress⟩ := Stages.close (m := m') (n := n)
    (p := p) (t := t) htakes.ready rfl
    (hread (Stages.idle (.reading (deliver halted r).1.length rest) .free
      (List.replicate n .free) m' d') rfl)
  have hstart : Stages.start p t r s meter =
      Stages.idle (.reading 0 ((deliver halted r).1 ++ rest)) .free (List.replicate n .free)
        (p.dedupCap.map Memory.start) d := by
    rw [Stages.start, Stages.idle, hrest, hn, List.replicate_succ]
  -- what the writer stores last makes it all that `run` stores
  have hrun := run_concluded ⟨p.batchSize, p.dedupCap⟩ t halted r s
  have honward := htakes.onward []
  rw [htakes.ready.last, List.append_nil] at honward
  rw [Nat.max_eq_left p.batchSize_pos, honward] at hrun
  obtain ⟨n, hmeter, hinserted⟩ := htakes.counts
  have htaken := (writeBatch_ok t d'.batch htakes.ready.fault htakes.ready.knows).1
  rw [hrun]
  refine ⟨x, hstart ▸ hhanded.trans hclose, houtcome, congrArg _ hwritten, ?_⟩
  rw [hprogress, hmeter, (writeBatch_taken htaken).2.1, hinserted]
  simp only [Progress.addHosts, Progress.modify, d, Nat.zero_add, Nat.add_assoc]

/-- A staging that a configuration asks for batches as the configuration itself does. -/
theorem run_staged (settings : PipelineSettings) (cap : Option Nat) (t : Target)
    (halted : Nat → Bool) (r : Reading) (s : Store) :
    run ⟨(Staging.of settings cap).batchSize, (Staging.of settings cap).dedupCap⟩ t halted r s =
      run ⟨settings.batchSize, cap⟩ t halted r s := by
  rw [run_concluded, run_concluded]
  simp only [Staging.of, Nat.max_eq_left (Nat.le_max_right settings.batchSize 1)]

/-! ### Any order -/

/-- What an intake has done that read its content to the end: the source's items in the generation
are what is left of the entries of all its lines, in some order, and nothing else is new. -/
structure Completed (p : Staging) (t : Target) (r : Reading) (s : Store) (meter : Progress)
    (x : Stages) (outcome : Outcome) : Prop where
  rows : ∃ kept, Sifted p.dedupCap.isSome ((chunks r).filterMap t.classify) kept ∧
    x.written.store.itemsOf t.source t.generation =
      kept.map (Item.ofEntry t.source t.generation)
  lines : outcome.lines = (chunks r).length
  inserted : outcome.inserted = (x.written.store.itemsOf t.source t.generation).length
  hosts : x.progress.now.hostsParsed = meter.now.hostsParsed + outcome.inserted
  others : Store.ChangesOnly t.owns s x.written.store

/-- An intake that read its content to the end has what is left of it in the store, and nothing on
its way. -/
theorem accounts_of_end {r : Reading} {s : Store} {meter : Progress} {x : Stages}
    {outcome : Outcome}
    (h : Relation.ReflTransGen (Step p t r.fault) (Stages.start p t r s meter) x)
    (hend : x.outcome? t = some (.ok outcome)) (hs : outcome.stopped = false) :
    ∃ stored, Sifted p.dedupCap.isSome ((chunks r).filterMap t.classify) stored ∧
      Accounts p t r s meter x stored ∧ outcome.lines = (chunks r).length ∧
      outcome.inserted = stored.length := by
  obtain ⟨hw, hd, hf, hr, hinserted⟩ := Stages.outcome?_ok hend hs
  obtain ⟨ho, haccounts⟩ := reached h
  obtain ⟨stored, ha⟩ := haccounts hf
  obtain ⟨hahead, hpassed⟩ := ho.settled hf hw hd (by rw [hr]; rfl)
  have hsifted := ha.sifted fun lines hl => by rw [hr] at hl; cases hl
  rw [hahead, hpassed] at hsifted
  have hcounts := ha.counts
  rw [hr] at hcounts
  exact ⟨stored, hsifted, ha, hcounts, by rw [← hinserted, ha.inserted]⟩

/-- **Whatever order the stages work in, an intake that read its content to the end has stored
what is left of it.** -/
theorem completed {r : Reading} {s : Store} {meter : Progress} {x : Stages} {outcome : Outcome}
    (h : Relation.ReflTransGen (Step p t r.fault) (Stages.start p t r s meter) x)
    (hend : x.outcome? t = some (.ok outcome)) (hs : outcome.stopped = false) :
    Completed p t r s meter x outcome := by
  obtain ⟨stored, hsifted, ha, hlines, hinserted⟩ := accounts_of_end h hend hs
  have hitems : x.written.store.itemsOf t.source t.generation =
      stored.map (Item.ofEntry t.source t.generation) := by
    rw [ha.store]
    exact t.itemsOf_replaced s stored
  refine ⟨⟨stored, hsifted, hitems⟩, hlines, ?_, ?_, ?_⟩
  · rw [hitems, List.length_map, hinserted]
  · rw [ha.hosts, hinserted]
  · rw [ha.store]
    exact t.replaced_changes s stored

/-- Two sorters and a memory of eight hosts. -/
def paired : Staging where
  batchSize := 100
  sorters := 2
  lineQueue := 4
  entryQueue := 4
  dedupCap := some 8
  batchSize_pos := Nat.succ_pos _
  sorters_pos := Nat.succ_pos _
  lineQueue_pos := Nat.succ_pos _
  entryQueue_pos := Nat.succ_pos _

def adList : Source := { id := 2, label := "ads", location := "https://lists.example/ads" }

/-- A store with one list. -/
def oneListed : Store :=
  { Store.empty with sources := [Store.userSource, adList], lastId := adList.id }

/-- Two lines for one host, the last of them without a line feed, and a comment. -/
def twice : Reading := { bytes := "ads.example\n# again\nads.example".toUTF8.toList }

theorem completed_twice : ∃ x,
    Relation.ReflTransGen (Step paired (.of adList 1) twice.fault)
      (Stages.start paired (.of adList 1) twice oneListed {}) x ∧
    x.outcome? (.of adList 1) = some (.ok ⟨3, 1, false⟩) ∧
    Completed paired (.of adList 1) twice oneListed {} x ⟨3, 1, false⟩ := by
  obtain ⟨x, hsteps, hend, -⟩ :=
    run_reached paired (.of adList 1) (fun _ => false) twice oneListed {} (by decide +kernel)
  have hrun : (run ⟨100, some 8⟩ (.of adList 1) (fun _ => false) twice oneListed).outcome =
      .ok ⟨3, 1, false⟩ := by decide +kernel
  rw [show paired.batchSize = 100 from rfl, show paired.dedupCap = some 8 from rfl, hrun] at hend
  exact ⟨x, hsteps, hend, completed hsteps hend rfl⟩

/-! ### What is left open -/

/-- The reader that came to the end of a content has read all of it, where the writer was not
refused. -/
theorem reading_whole {r : Reading} {s : Store} {meter : Progress} {x : Stages} {lines : Nat}
    (h : Relation.ReflTransGen (Step p t r.fault) (Stages.start p t r s meter) x)
    (hr : x.reader = .gone (.finished lines)) (hf : x.written.fault = none) : r.fault = none := by
  induction h with
  | refl => cases hr
  | tail hsteps step ih =>
    have hbefore := step.taken hf
    cases step with
    | read step =>
      cases step with
      | next | halt | fail | offer => cases hr
      | finish _ whole => exact whole
      | hangUp hoffering hdeserted =>
        -- the sorters are gone before the reader only if the writer was refused
        obtain ⟨a, ha⟩ := List.exists_mem_of_ne_nil _ (reached hsteps).1.manned
        rcases (reached hsteps).1.left (hdeserted a ha ▸ ha) with ⟨hgone, -⟩ | hfault
        · rw [hoffering] at hgone
          cases hgone
        · rw [hbefore] at hfault
          cases hfault
    | sort _ step => cases step <;> exact ih hr hbefore
    | write step => cases step <;> exact ih hr hbefore

/-- The arrival that leaves `kept` of one list of entries, and of any other all of it. -/
def Arrival.leaving {filtering : Bool} {all kept : List Entry} (h : Sifted filtering all kept) :
    Arrival where
  kept f entries := if f = filtering ∧ entries = all then kept else entries
  sifted := by
    intro f entries
    split
    · rename_i hsame
      rw [hsame.1, hsame.2]
      exact h
    · exact .refl f entries

theorem handedOn_leaving (cap : Option Nat) {all kept : List Entry}
    (h : Sifted cap.isSome all kept) : handedOn cap (some (.leaving h)) all = kept :=
  if_pos ⟨rfl, rfl⟩

/-- **Whatever order the stages work in, an intake that read its content to the end has come to
what `run` comes to at some arrival.** -/
theorem completed_run {r : Reading} {s : Store} {meter : Progress} {x : Stages} {outcome : Outcome}
    (hk : s.knows t.source = true)
    (h : Relation.ReflTransGen (Step p t r.fault) (Stages.start p t r s meter) x)
    (hend : x.outcome? t = some (.ok outcome)) (hs : outcome.stopped = false) :
    ∃ arrival,
      run ⟨p.batchSize, p.dedupCap⟩ t (fun _ => false) r s (some arrival) =
        ⟨.ok outcome, x.written.store, outcome.inserted⟩ := by
  obtain ⟨stored, hsifted, ha, hlines, hinserted⟩ := accounts_of_end h hend hs
  obtain ⟨-, -, hf, hr, -⟩ := Stages.outcome?_ok hend hs
  have hdeliver : deliver (fun _ => false) r = (chunks r, .finished (chunks r).length) := by
    have hnever : haltLine? (fun _ => false) (chunks r).length = none :=
      List.find?_eq_none.mpr fun _ _ => Bool.false_ne_true
    rw [deliver, hnever, reading_whole h hr hf]
  refine ⟨.leaving hsifted, ?_⟩
  obtain ⟨houtcome, hstore⟩ :=
    run_eq ⟨p.batchSize, p.dedupCap⟩ (fun _ => false) r (some (.leaving hsifted)) hk
  have hcounted := run_counted t ⟨p.batchSize, p.dedupCap⟩ (fun _ => false) r s
    (some (.leaving hsifted))
  generalize run ⟨p.batchSize, p.dedupCap⟩ t (fun _ => false) r s (some (.leaving hsifted)) = done
    at houtcome hstore hcounted ⊢
  rw [hdeliver, handedOn_leaving, ← ha.store] at hstore
  rw [hstore, ha.store, t.itemsOf_replaced, List.length_map, ← hinserted] at hcounted
  rw [hdeliver, hcounted, ← hlines] at houtcome
  obtain ⟨lines, inserted, stopped⟩ := outcome
  obtain ⟨answer, store, counted⟩ := done
  cases hs
  cases houtcome
  cases hstore
  cases hcounted
  rfl

end Sinkhole.Intake
