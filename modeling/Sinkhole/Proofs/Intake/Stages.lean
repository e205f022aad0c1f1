import Sinkhole.Intake.Stages
import Sinkhole.Proofs.Intake
import Sinkhole.Proofs.Intake.Sifted
import Mathlib.Logic.Relation
import Mathlib.Tactic.Tauto

/-! What an intake stores, in whatever order its stages work.

An entry is on its way from the moment its line is read until it is in the store, and
the one place where it can end before is a sorter that knows the host already. It
knows it from the memory, and what is written there has been passed on: to the writer
or into the store, from where no entry is taken back. So when everything has ended
well, what is stored is what is left of the entries of the content (`Accounts`), and
the rest of the store is as it was. One lemma a stage says that its steps keep the
accounts (`reads`, `sorts`, `writes`), and `reached` that a whole intake does. -/
namespace Sinkhole.Intake

/-! ### Where an entry is -/

theorem Target.classify_eq (t : Target) (line : List UInt8) :
    t.classify line = t.read (lineText line) := rfl

/-- The host that a sorter has not decided about yet. -/
def Sorter.pending : Sorter → List Entry
  | asking h | searching h | counting h | writing h | beaten h | excess h | closing h
  | emptying h => [.blocked h]
  | _ => []

/-- The entry that a sorter will pass on. -/
def Sorter.held : Sorter → List Entry
  | holding e => [e]
  | _ => []

/-- The entries of the lines that have not been offered yet. -/
def Reader.unsent (t : Target) : Reader → List Entry
  | reading _ rest => rest.filterMap t.classify
  | offering _ text rest => (t.read text).toList ++ rest.filterMap t.classify
  | gone _ => []

def Writer.batch : Writer → List Entry
  | collecting batch => batch
  | gone => []

/-- The first line, and then the rest. -/
theorem filterMap_cons_toList {α β : Type} (f : α → Option β) (a : α) (as : List α) :
    (a :: as).filterMap f = (f a).toList ++ as.filterMap f := by
  cases h : f a <;> simp [h]

namespace Stages

/-- The entries that the sorters have yet to decide about. -/
def ahead (x : Stages) (t : Target) : List Entry :=
  x.sorters.flatMap Sorter.pending ++ (x.lines.filterMap t.read ++ x.reader.unsent t)

/-- The entries that will be stored, unless a batch is refused. -/
def passed (x : Stages) : List Entry :=
  x.sorters.flatMap Sorter.held ++ (x.entries ++ x.writer.batch)

theorem mem_passed {x : Stages} {e : Entry} :
    e ∈ x.passed ↔ (∃ a ∈ x.sorters, e ∈ a.held) ∨ e ∈ x.entries ∨ e ∈ x.writer.batch := by
  simp [passed]

/-- The entries on their way, with those of one sorter apart. -/
theorem count_way {x : Stages} {a : Sorter} {before after : List Sorter}
    (hs : x.sorters = before ++ a :: after) (t : Target) (stored : List Entry) (e : Entry) :
    (x.ahead t ++ (x.passed ++ stored)).count e =
      (a.pending ++ a.held).count e + (x.lines.filterMap t.read).count e +
        x.entries.count e + ((x.reader.unsent t).count e + x.writer.batch.count e +
        stored.count e + ((before ++ after).flatMap Sorter.pending).count e +
        ((before ++ after).flatMap Sorter.held).count e) := by
  simp only [ahead, passed, hs, List.flatMap_append, List.flatMap_cons, List.count_append]
  omega

end Stages

variable {p : Staging} {t : Target} {r : Reading} {s : Store} {meter : Progress}
  {fault : Option String} {x y : Stages} {a b : Sorter} {before after : List Sorter}

/-- A batch that is taken goes behind what is there. -/
theorem writeBatch_taken {w : Written} {batch : List Entry}
    (h : (writeBatch t w batch).fault = none) :
    w.fault = none ∧ (writeBatch t w batch).inserted = w.inserted + batch.length ∧
      (writeBatch t w batch).store =
        { w.store with
          items := w.store.items ++ batch.map (Item.ofEntry t.source t.generation) } := by
  unfold writeBatch at h ⊢
  cases hw : w.fault with
  | some e => simp [hw] at h
  | none =>
    cases hi : w.store.insertItems t.source t.generation batch with
    | error e => simp [hw, hi] at h
    | ok store => simp [w.store.insertItems_eq hi]

/-- A batch that is taken comes after none that was refused. -/
theorem not_refused {w : Written} {batch : List Entry}
    (h : (writeBatch t w batch).fault = none) : ¬ w.fault.isSome = true := by
  rw [(writeBatch_taken h).1]
  exact Bool.false_ne_true

/-! ### How the stages hang up -/

/-- The other sorters are where they were. -/
theorem mem_swapped {c : Sorter} (hs : x.sorters = before ++ a :: after)
    (hc : c ∈ before ++ b :: after) : c = b ∨ c ∈ x.sorters := by
  rw [hs]
  simp only [List.mem_append, List.mem_cons] at hc ⊢
  tauto

/-- A sorter leaves when there is nothing more to come or nobody to pass entries on to, and the
writer when all sorters have left or a batch was refused. -/
structure Orderly (x : Stages) : Prop where
  manned : x.sorters ≠ []
  left : .gone ∈ x.sorters →
    (x.reader.isGone = true ∧ x.lines = []) ∨ x.written.fault.isSome = true
  ended : x.writer = .gone → (x.Deserted ∧ x.entries = []) ∨ x.written.fault.isSome = true

namespace Orderly

/-- While nothing was refused, whoever has an entry finds the writer there. -/
theorem heard (h : Orderly x) (hf : x.written.fault = none) (hs : x.sorters = before ++ a :: after)
    (ha : a ≠ .gone) : x.writer ≠ .gone := by
  intro hw
  rcases h.ended hw with ⟨hdeserted, -⟩ | hfault
  · exact ha (hdeserted a (by rw [hs]; simp))
  · rw [hf] at hfault
    cases hfault

/-- While nothing was refused, the reader does not give up. -/
theorem not_deserted (h : Orderly x) (hf : x.written.fault = none)
    (hr : x.reader.isGone = false) : ¬ x.Deserted := by
  intro hd
  obtain ⟨a, ha⟩ := List.exists_mem_of_ne_nil _ h.manned
  rcases h.left (hd a ha ▸ ha) with ⟨hgone, -⟩ | hfault
  · rw [hr] at hgone
    cases hgone
  · rw [hf] at hfault
    cases hfault

theorem reads (h : Orderly x) (step : Reads p fault x y) : Orderly y := by
  cases step with
  | next hr | offer hr =>
    refine ⟨h.manned, fun hg => ?_, h.ended⟩
    rcases h.left hg with ⟨hgone, -⟩ | hfault
    · rw [hr] at hgone
      cases hgone
    · exact .inr hfault
  | halt | finish | fail | hangUp =>
    exact ⟨h.manned, fun hg => (h.left hg).imp_left fun hl => ⟨rfl, hl.2⟩, h.ended⟩

/-- A sorter that is still there keeps the ones after it from having left. -/
theorem sorts (h : Orderly x) (hs : x.sorters = before ++ a :: after) (step : Sorts p t x a y b) :
    Orderly { y with sorters := before ++ b :: after } := by
  have hgone : x.Deserted → a = .gone := fun hd => hd a (by rw [hs]; simp)
  cases step with
  | take hl =>
    refine ⟨by simp, fun hg => ?_, fun hw => ?_⟩
    · rcases mem_swapped hs hg with hb | hx
      · unfold Sorter.onto at hb
        split at hb
        · cases hb
        · split at hb <;> cases hb
        · cases hb
      · rcases h.left hx with ⟨-, hnil⟩ | hfault
        · rw [hl] at hnil
          cases hnil
        · exact .inr hfault
    · exact (h.ended hw).imp_left fun hd => absurd (hgone hd.1) (by decide)
  | leave hl hr =>
    refine ⟨by simp, fun _ => .inl ⟨hr, hl⟩, fun hw => ?_⟩
    exact (h.ended hw).imp_left fun hd => absurd (hgone hd.1) (by decide)
  | access hm hstep =>
    refine ⟨by simp, fun hg => ?_, fun hw => ?_⟩
    · rcases mem_swapped hs hg with hb | hx
      · subst hb
        cases hstep
      · exact h.left hx
    · refine (h.ended hw).imp_left fun hd => ?_
      have := hgone hd.1
      subst this
      cases hstep
  | offer _ hheard =>
    refine ⟨by simp, fun hg => ?_, fun hw => absurd hw hheard⟩
    rcases mem_swapped hs hg with hb | hx
    · cases hb
    · exact h.left hx
  | giveUp hw =>
    have hover := (h.ended hw).resolve_left fun hd => by cases hgone hd.1
    exact ⟨by simp, fun _ => .inr hover, fun _ => .inr hover⟩

theorem writes (h : Orderly x) (step : Writes p t x y) : Orderly y := by
  cases step with
  | receive hw => exact ⟨h.manned, h.left, fun hg => by cases hg⟩
  | flush hw _ htaken =>
    exact ⟨h.manned, fun hg => .inl ((h.left hg).resolve_right (not_refused htaken)),
      fun hg => by cases hg⟩
  | finish hw _ he hd htaken =>
    exact ⟨h.manned, fun hg => .inl ((h.left hg).resolve_right (not_refused htaken)),
      fun _ => .inl ⟨hd, he⟩⟩
  | fail => exact ⟨h.manned, fun _ => .inr rfl, fun _ => .inr rfl⟩

/-- **However the stages work, they hang up in order.** -/
theorem step (h : Orderly x) (step : Step p t fault x y) : Orderly y := by
  cases step with
  | read step => exact h.reads step
  | sort hs step => exact h.sorts hs step
  | write step => exact h.writes step

theorem start (p : Staging) (t : Target) (r : Reading) (s : Store) (meter : Progress) :
    Orderly (Stages.start p t r s meter) := by
  have hfree : ∀ a ∈ List.replicate p.sorters Sorter.free, a = .free :=
    fun a ha => List.eq_of_mem_replicate ha
  refine ⟨fun hnil => ?_, fun hg => absurd (hfree _ hg) (by decide), fun hw => by cases hw⟩
  have hlength := congrArg List.length hnil
  simp [Stages.start, Nat.ne_of_gt p.sorters_pos] at hlength

end Orderly

/-! ### The accounts -/

namespace Access

variable {m m' : Memory}

/-- What is written down is passed on with it. -/
theorem seen (step : Access m a m' b) (host : String) (h : host ∈ m'.seen) :
    host ∈ m.seen ∨ b.held = [.blocked host] := by
  cases step with
  | write =>
    rcases List.mem_cons.mp h with rfl | hold
    · exact .inr rfl
    · exact .inl hold
  | empty => exact .inl (List.mem_of_mem_filter h)
  | _ => exact .inl h

theorem beaten {host : String} (step : Access m a m' b) (h : .beaten host = b) :
    host ∈ m.seen := by
  cases step <;> first | exact Sorter.beaten.inj h ▸ ‹_› | cases h

/-- A sorter goes on with its host, unless that is known. -/
theorem load (step : Access m a m' b) : b.pending ++ b.held = a.pending ++ a.held ∨
    ∃ host, a.pending ++ a.held = [.blocked host] ∧ b.pending ++ b.held = [] ∧
      (host ∈ m.seen ∨ a = .beaten host) := by
  cases step with
  | @known h hk => exact .inr ⟨h, rfl, rfl, .inl hk⟩
  | @countOut h => exact .inr ⟨h, rfl, rfl, .inr rfl⟩
  | _ => exact .inl rfl

theorem held (step : Access m a m' b) : a.held = [] := by cases step <;> rfl

end Access

/-- What a sorter reads, it goes on with. -/
theorem Sorter.onto_load (filtering : Bool) (e : Option Entry) :
    (Sorter.onto filtering e).pending ++ (Sorter.onto filtering e).held = e.toList := by
  unfold Sorter.onto
  split
  · rfl
  · split <;> rfl
  · rfl

theorem Sorter.onto_ne_beaten (filtering : Bool) (e : Option Entry) (host : String) :
    .beaten host ≠ Sorter.onto filtering e := by
  intro h
  unfold Sorter.onto at h
  split at h
  · cases h
  · split at h <;> cases h
  · cases h

/-- A sorter takes nothing back that was passed on. -/
theorem Sorts.passed (step : Sorts p t x a y b) (hw : a ≠ .gone → x.writer ≠ .gone)
    (hs : x.sorters = before ++ a :: after) {e : Entry} (he : e ∈ x.passed) :
    e ∈ Stages.passed { y with sorters := before ++ b :: after } := by
  have hkept : (∀ e ∈ a.held, e ∈ b.held ∨ e ∈ y.entries) → (∀ e ∈ x.entries, e ∈ y.entries) →
      y.writer = x.writer → e ∈ Stages.passed { y with sorters := before ++ b :: after } := by
    intro ha he' hwriter
    simp only [Stages.mem_passed, hs, List.mem_append, List.mem_cons, hwriter] at he ⊢
    rcases he with ⟨c, hc | rfl | hc, hec⟩ | hq | hb
    · exact .inl ⟨c, .inl hc, hec⟩
    · exact (ha e hec).elim (fun hb => .inl ⟨b, .inr (.inl rfl), hb⟩) fun hq => .inr (.inl hq)
    · exact .inl ⟨c, .inr (.inr hc), hec⟩
    · exact .inr (.inl (he' e hq))
    · exact .inr (.inr hb)
  cases step with
  | take | leave => exact hkept nofun (fun _ h => h) rfl
  | access hm hstep =>
    refine hkept (fun e he => ?_) (fun _ h => h) rfl
    rw [hstep.held] at he
    cases he
  | offer =>
    exact hkept (fun e he => .inr (List.mem_append_right _ he))
      (fun _ h => List.mem_append_left _ h) rfl
  | giveUp hgone => exact absurd hgone (hw nofun)

/-- How many lines the reader has counted of those there are; a reader that left early is not
asked. -/
def Reader.Counts (total : Nat) : Reader → Prop
  | reading count rest => count + rest.length = total
  | offering count _ rest => count + rest.length = total
  | gone (.finished lines) => lines = total
  | gone _ => True

/-- Where the entries of a content are: `stored` are in the store, and these and the ones on
their way are what is left of all. A host is written down, or found to be written down, only
where its entry has been passed on. -/
structure Accounts (p : Staging) (t : Target) (r : Reading) (s : Store) (meter : Progress)
    (x : Stages) (stored : List Entry) : Prop where
  counts : x.reader.Counts (chunks r).length
  sifted : (∀ lines, x.reader ≠ .gone (.stopped lines)) →
    Sifted p.dedupCap.isSome ((chunks r).filterMap t.classify)
      (x.ahead t ++ (x.passed ++ stored))
  filtering : x.memory.isSome = p.dedupCap.isSome
  seen : ∀ m, x.memory = some m → ∀ h ∈ m.seen, .blocked h ∈ x.passed ++ stored
  beaten : ∀ h, .beaten h ∈ x.sorters → .blocked h ∈ x.passed ++ stored
  store : x.written.store = { s with
    items := (s.clearItems t.source (some t.generation)).items ++
      stored.map (Item.ofEntry t.source t.generation) }
  inserted : x.written.inserted = stored.length
  hosts : x.progress.now.hostsParsed = meter.now.hostsParsed + stored.length

namespace Accounts

variable {stored : List Entry}

theorem start (p : Staging) (t : Target) (r : Reading) (s : Store) (meter : Progress) :
    Accounts p t r s meter (Stages.start p t r s meter) [] where
  counts := by simp [Stages.start, Reader.Counts]
  sifted _ := by
    have hnone : ∀ f : Sorter → List Entry, f .free = [] →
        (List.replicate p.sorters Sorter.free).flatMap f = [] := by
      intro f hf
      rw [List.flatMap_eq_nil_iff]
      exact fun a ha => List.eq_of_mem_replicate ha ▸ hf
    have hall : (Stages.start p t r s meter).ahead t ++
        ((Stages.start p t r s meter).passed ++ []) = (chunks r).filterMap t.classify := by
      simp [Stages.ahead, Stages.passed, Stages.start, Reader.unsent, Writer.batch,
        hnone _ (rfl : Sorter.pending .free = []), hnone _ (rfl : Sorter.held .free = [])]
    rw [hall]
    exact .refl _ _
  filtering := by simp [Stages.start]
  seen m hm h hh := by
    cases hc : p.dedupCap with
    | none => simp [Stages.start, hc] at hm
    | some cap =>
      simp only [Stages.start, hc, Option.map_some, Option.some.injEq] at hm
      subst hm
      cases hh
  beaten h hh := by cases List.eq_of_mem_replicate hh
  store := by simp [Stages.start, Store.clearItems]
  inserted := rfl
  hosts := rfl

/-- The reader only moves entries on, unless it leaves before the end. -/
theorem reads (h : Accounts p t r s meter x stored) (ho : Orderly x)
    (hf : x.written.fault = none) (step : Reads p r.fault x y) :
    Accounts p t r s meter y stored := by
  have hcounts := h.counts
  have hsifted := h.sifted
  cases step with
  | next hr =>
    rw [hr] at hcounts hsifted
    refine { h with counts := ?_, sifted := fun _ => ?_ }
    · simp only [Reader.Counts, List.length_cons] at hcounts ⊢
      omega
    · refine (hsifted nofun).perm (.of_eq ?_)
      simp only [Stages.ahead, Stages.passed, hr, Reader.unsent, filterMap_cons_toList,
        t.classify_eq]
  | halt hr => exact { h with counts := trivial, sifted := fun hn => absurd rfl (hn _) }
  | finish hr =>
    rw [hr] at hcounts hsifted
    refine { h with counts := ?_, sifted := fun _ => ?_ }
    · exact hcounts
    · refine (hsifted nofun).perm (.of_eq ?_)
      simp only [Stages.ahead, Stages.passed, hr, Reader.unsent, List.filterMap_nil]
  | fail hr =>
    rw [hr] at hsifted
    refine { h with counts := trivial, sifted := fun _ => (hsifted nofun).perm (.of_eq ?_) }
    simp only [Stages.ahead, Stages.passed, hr, Reader.unsent, List.filterMap_nil]
  | offer hr =>
    rw [hr] at hcounts hsifted
    refine { h with counts := hcounts, sifted := fun _ => (hsifted nofun).perm (.of_eq ?_) }
    simp only [Stages.ahead, Stages.passed, hr, Reader.unsent, List.filterMap_append,
      filterMap_cons_toList, List.filterMap_nil, List.append_nil, List.append_assoc]
  | hangUp hr hd => exact absurd hd (ho.not_deserted hf (by rw [hr]; rfl))

/-- What is accounted for stays so when a sorter moves. -/
theorem mem_of_sorts (ho : Orderly x) (hf : x.written.fault = none)
    (hs : x.sorters = before ++ a :: after) (step : Sorts p t x a y b) {e : Entry}
    (he : e ∈ x.passed ++ stored) :
    e ∈ Stages.passed { y with sorters := before ++ b :: after } ++ stored := by
  rcases List.mem_append.mp he with hpassed | hstored
  · exact List.mem_append_left _ (step.passed (fun ha => ho.heard hf hs ha) hs hpassed)
  · exact List.mem_append_right _ hstored

theorem beaten_of_sorts (h : Accounts p t r s meter x stored) (ho : Orderly x)
    (hf : x.written.fault = none) (hs : x.sorters = before ++ a :: after)
    (step : Sorts p t x a y b) {g : String} (hg : .beaten g ∈ before ++ b :: after)
    (hnew : .beaten g = b → .blocked g ∈ x.passed ++ stored) :
    .blocked g ∈ Stages.passed { y with sorters := before ++ b :: after } ++ stored := by
  rcases mem_swapped hs hg with hb | hx
  · exact mem_of_sorts ho hf hs step (hnew hb)
  · exact mem_of_sorts ho hf hs step (h.beaten g hx)

/-- A sorter that decides about a host drops it only if it is known to have been passed on. -/
theorem access {m m' : Memory} (h : Accounts p t r s meter x stored) (ho : Orderly x)
    (hf : x.written.fault = none) (hs : x.sorters = before ++ a :: after)
    (hm : x.memory = some m) (hstep : Access m a m' b) :
    Accounts p t r s meter
      { x with memory := some m', sorters := before ++ b :: after } stored := by
  have step : Sorts p t x a { x with memory := some m' } b := .access hm hstep
  refine { h with
    sifted := fun hn => ?_
    filtering := by rw [← h.filtering, hm]; rfl
    seen := fun n hn g hg => ?_
    beaten := fun g hg => h.beaten_of_sorts ho hf hs step hg fun hb =>
      h.seen m hm g (hstep.beaten hb) }
  · rcases hstep.load with hsame | ⟨g, ha, hb, hknown⟩
    · refine (h.sifted hn).perm (List.perm_iff_count.mpr fun e => ?_)
      rw [Stages.count_way hs, Stages.count_way rfl, hsame]
    · have hon : p.dedupCap.isSome = true := by rw [← h.filtering, hm]; rfl
      have hhere : a ∈ x.sorters := by rw [hs]; simp
      have hg : .blocked g ∈ x.passed ++ stored :=
        hknown.elim (h.seen m hm g) fun hbeat => h.beaten g (hbeat ▸ hhere)
      have hsifted := h.sifted hn
      rw [hon] at hsifted ⊢
      refine Sifted.drop (hsifted.perm (List.perm_iff_count.mpr fun e => ?_))
        (List.mem_append_right _ (mem_of_sorts ho hf hs step hg))
      rw [← List.singleton_append, List.count_append, Stages.count_way hs,
        Stages.count_way rfl, ha, hb, List.count_nil]
      dsimp only
      omega
  · cases hn
    rcases hstep.seen g hg with hold | hnew
    · exact mem_of_sorts ho hf hs step (h.seen m hm g hold)
    · refine List.mem_append_left _ (Stages.mem_passed.mpr (.inl ⟨b, by simp, ?_⟩))
      rw [hnew]
      exact List.mem_singleton_self _

/-- A sorter goes on with what it takes, and passes on what it has. -/
theorem sorts (h : Accounts p t r s meter x stored) (ho : Orderly x)
    (hf : x.written.fault = none) (hs : x.sorters = before ++ a :: after)
    (step : Sorts p t x a y b) :
    Accounts p t r s meter { y with sorters := before ++ b :: after } stored := by
  have hseen : ∀ m, x.memory = some m → ∀ g ∈ m.seen, .blocked g ∈
      Stages.passed { y with sorters := before ++ b :: after } ++ stored :=
    fun m hm g hg => mem_of_sorts ho hf hs step (h.seen m hm g hg)
  have hbeaten := fun g => h.beaten_of_sorts ho hf hs step (g := g)
  cases step with
  | @take text _ hl =>
    refine { h with
      sifted := fun hn => (h.sifted hn).perm (List.perm_iff_count.mpr fun e => ?_)
      seen := hseen
      beaten := fun g hg => hbeaten g hg fun hb => absurd hb (Sorter.onto_ne_beaten _ _ _) }
    rw [Stages.count_way hs, Stages.count_way rfl, hl, filterMap_cons_toList, Sorter.onto_load]
    simp only [Sorter.pending, Sorter.held, List.count_append, List.count_nil]
    omega
  | leave hl hr =>
    refine { h with
      sifted := fun hn => (h.sifted hn).perm (List.perm_iff_count.mpr fun e => ?_)
      seen := hseen
      beaten := fun g hg => hbeaten g hg nofun }
    rw [Stages.count_way hs, Stages.count_way rfl]
    rfl
  | access hm hstep => exact h.access ho hf hs hm hstep
  | offer _ hheard =>
    refine { h with
      sifted := fun hn => (h.sifted hn).perm (List.perm_iff_count.mpr fun e => ?_)
      seen := hseen
      beaten := fun g hg => hbeaten g hg nofun }
    rw [Stages.count_way hs, Stages.count_way rfl]
    simp only [Sorter.pending, Sorter.held, List.count_append, List.count_nil]
    omega
  | giveUp hw => exact absurd hw (ho.heard hf hs nofun)

/-- A batch is stored as a whole. -/
theorem store_batch {batch : List Entry} {writer : Writer} (h : Accounts p t r s meter x stored)
    (hw : x.writer = .collecting batch) (hnew : writer.batch = [])
    (ht : (writeBatch t x.written batch).fault = none) :
    Accounts p t r s meter (x.store t batch writer) (stored ++ batch) := by
  obtain ⟨-, hinserted, hstore⟩ := writeBatch_taken ht
  have hpassed : ((x.store t batch writer).passed ++ (stored ++ batch)).Perm
      (x.passed ++ stored) := by
    refine List.perm_iff_count.mpr fun g => ?_
    simp only [Stages.passed, Stages.store, hnew, List.count_append, List.count_nil]
    rw [hw, Writer.batch]
    omega
  refine { h with
    sifted := fun hn => (h.sifted hn).perm (hpassed.append_left _)
    seen := fun m hm g hg => hpassed.mem_iff.mpr (h.seen m hm g hg)
    beaten := fun g hg => hpassed.mem_iff.mpr (h.beaten g hg)
    store := hstore.trans ?_
    inserted := ?_
    hosts := ?_ }
  · rw [h.store, List.map_append, List.append_assoc]
  · exact hinserted.trans (by rw [h.inserted, List.length_append])
  · show x.progress.now.hostsParsed + batch.length = _
    rw [h.hosts, List.length_append, Nat.add_assoc]

/-- The writer takes entries into its batch, and a batch that is taken is stored. -/
theorem writes (h : Accounts p t r s meter x stored) (step : Writes p t x y)
    (hf : y.written.fault = none) : ∃ stored', Accounts p t r s meter y stored' := by
  cases step with
  | @receive batch e rest hw _ he =>
    have hnext : e :: rest = [e] ++ rest := rfl
    have hpassed : (Stages.passed
        { x with writer := .collecting (batch ++ [e]), entries := rest } ++ stored).Perm
          (x.passed ++ stored) := by
      refine List.perm_iff_count.mpr fun g => ?_
      simp only [Stages.passed, hw, he, hnext, Writer.batch, List.count_append]
      omega
    exact ⟨stored, { h with
      sifted := fun hn => (h.sifted hn).perm (hpassed.append_left _)
      seen := fun m hm g hg => hpassed.mem_iff.mpr (h.seen m hm g hg)
      beaten := fun g hg => hpassed.mem_iff.mpr (h.beaten g hg) }⟩
  | flush hw _ ht => exact ⟨_, h.store_batch hw rfl ht⟩
  | finish hw _ _ _ ht => exact ⟨_, h.store_batch hw rfl ht⟩
  | fail => cases hf

end Accounts

/-! ### Whole intakes -/

/-- A refusal is never forgotten. -/
theorem Step.taken (step : Step p t fault x y) (hf : y.written.fault = none) :
    x.written.fault = none := by
  cases step with
  | read step => cases step <;> exact hf
  | sort _ step => cases step <;> exact hf
  | write step =>
    cases step with
    | receive => exact hf
    | flush _ _ ht => exact (writeBatch_taken ht).1
    | finish _ _ _ _ ht => exact (writeBatch_taken ht).1
    | fail => cases hf

theorem Accounts.step {stored : List Entry} (h : Accounts p t r s meter x stored) (ho : Orderly x)
    (step : Step p t r.fault x y) (hf : y.written.fault = none) :
    ∃ stored', Accounts p t r s meter y stored' := by
  have hbefore := step.taken hf
  cases step with
  | read step => exact ⟨stored, h.reads ho hbefore step⟩
  | sort hs step => exact ⟨stored, h.sorts ho hbefore hs step⟩
  | write step => exact h.writes step hf

/-- Whatever point an intake has come to, and whatever way. -/
theorem reached (h : Relation.ReflTransGen (Step p t r.fault) (Stages.start p t r s meter) x) :
    Orderly x ∧ (x.written.fault = none → ∃ stored, Accounts p t r s meter x stored) := by
  induction h with
  | refl => exact ⟨.start p t r s meter, fun _ => ⟨[], .start p t r s meter⟩⟩
  | tail _ step ih =>
    obtain ⟨ho, haccounts⟩ := ih
    refine ⟨ho.step step, fun hf => ?_⟩
    obtain ⟨stored, h⟩ := haccounts (step.taken hf)
    exact h.step ho step hf

/-- An end that is told as a success without a stop is one where nothing was refused and the
reader came to the end of a whole content. -/
theorem Stages.outcome?_ok {outcome : Outcome} (h : x.outcome? t = some (.ok outcome))
    (hs : outcome.stopped = false) :
    x.writer = .gone ∧ x.Deserted ∧ x.written.fault = none ∧
      x.reader = .gone (.finished outcome.lines) ∧ x.written.inserted = outcome.inserted := by
  unfold outcome? at h
  split at h
  case h_2 => cases h
  case h_1 ending hr hw =>
    split at h
    case isFalse => cases h
    case isTrue hd =>
      have hc := Option.some.inj h
      unfold concluded at hc
      split at hc
      · cases hc
      · cases hc
      · rename_i hfault
        cases hc
        exact ⟨hw, hd, hfault, hr, rfl⟩
      · cases hc
        cases hs

/-- When all stages have ended in order, nothing is on its way. -/
theorem Orderly.settled (h : Orderly x) (hf : x.written.fault = none) (hw : x.writer = .gone)
    (hd : x.Deserted) (hr : x.reader.isGone = true) : x.ahead t = [] ∧ x.passed = [] := by
  obtain ⟨a, ha⟩ := List.exists_mem_of_ne_nil _ h.manned
  have hlines : x.lines = [] := by
    rcases h.left (hd a ha ▸ ha) with ⟨-, hnil⟩ | hfault
    · exact hnil
    · rw [hf] at hfault
      cases hfault
  have hentries : x.entries = [] := by
    rcases h.ended hw with ⟨-, hnil⟩ | hfault
    · exact hnil
    · rw [hf] at hfault
      cases hfault
  have hidle : ∀ f : Sorter → List Entry, f .gone = [] → x.sorters.flatMap f = [] := by
    intro f hgone
    rw [List.flatMap_eq_nil_iff]
    exact fun c hc => hd c hc ▸ hgone
  have hunsent : x.reader.unsent t = [] := by
    cases hread : x.reader with
    | gone => rfl
    | reading | offering => rw [hread] at hr; cases hr
  constructor
  · rw [Stages.ahead, hidle _ rfl, hlines, hunsent]
    rfl
  · rw [Stages.passed, hidle _ rfl, hentries, hw]
    rfl

end Sinkhole.Intake
