import Sinkhole.Proofs.Update.Checked
import Sinkhole.Proofs.Update.Learned
import Sinkhole.Proofs.Update.One

/-! Histories of a store, and a ledger that is kept beside one.

A history is a list of acts on a new store: edits of the sources and of the user's
entries, checks, and runs, each with the world that it meets. The ledger is told what
was done and what a run came to. What it writes down of a source is what the world
answered when the source was taken over, and nothing that the store holds, so the two
can be compared. -/
namespace Sinkhole.History

open Update (Setup Visit)
open Work (upon)

variable {σ : Type}

/-! ### Acts -/

/-- Something that is done to a store. -/
inductive Act (σ : Type) where
  | register (r : Registration)
  | setEnabled (id : Int) (enabled : Bool)
  | remove (id : Int)
  | addUser (e : Entry)
  | removeUser (host : String)
  | check (w : World σ) (s : Setup)
  | updateAll (w : World σ) (s : Setup) (task : Option String)
  | updateOne (w : World σ) (s : Setup) (id : Int) (task : Option String)

/-- The updater after an edit; one that is refused changes nothing. -/
def edited (u : Updater σ) : Except Error Store → Updater σ
  | .ok store => { u with store }
  | .error _ => u

def Act.perform (u : Updater σ) : Act σ → Updater σ
  | register r => { u with store := (u.store.upsert r).2 }
  | setEnabled id enabled => edited u (u.store.setEnabled id enabled)
  | remove id => edited u (u.store.remove id)
  | addUser e => edited u (u.store.addUser e)
  | removeUser host => { u with store := (u.store.removeUser host).2 }
  | check w s => (Update.check w s u).2
  | updateAll w s task => (Update.updateAll w s task u).2
  | updateOne w s id task => (Update.updateOne w s id task u).2

theorem Act.perform_running (a : Act σ) {u : Updater σ} (hu : u.running = false) :
    (a.perform u).running = false := by
  have hedited : ∀ r, (edited u r).running = false := by
    intro r
    cases r <;> exact hu
  cases a with
  | register r => exact hu
  | setEnabled id enabled => exact hedited _
  | remove id => exact hedited _
  | addUser e => exact hedited _
  | removeUser host => exact hu
  | check w s => exact Work.supervised_running _ _ hu
  | updateAll w s task => exact Work.supervised_running _ _ hu
  | updateOne w s id task => exact Work.supervised_running _ _ hu

/-! ### What was taken over -/

/-- Content that was taken over: where it came from, what was fetched, and the entries that all of
it comes to. -/
structure Taken (σ : Type) where
  world : World σ
  download : Fetch.Download
  entries : List Entry

/-- What a source comes to when it is fetched and read from here; nothing if it is not fetched
anew or cannot be opened. -/
def contentAt (w : World σ) (s : Setup) (source : Source) (u : Updater σ) : Option (Taken σ) :=
  match upon (Fetch.fetch w s.fetch source) u with
  | (.ok (.downloaded d), u') =>
    match (d.content.opening w u'.world).answer with
    | .ok opened => some ⟨w, d, s.entriesFrom source opened⟩
    | .error _ => none
  | _ => none

theorem contentAt_read {w : World σ} {s : Setup} {source : Source} {u u' : Updater σ}
    {d : Fetch.Download} {opened : Opened}
    (hfetch : upon (Fetch.fetch w s.fetch source) u = (.ok (.downloaded d), u'))
    (hread : Update.ReadThrough w d.content u' opened) :
    contentAt w s source u = some ⟨w, d, s.entriesFrom source opened⟩ := by
  simp [contentAt, hfetch, hread.answer]

/-- A fetched source on which a run takes effect is unchanged, or its content was staged and is
moved into place. -/
theorem fetched_cases {w : World σ} {s : Setup} {task : Option String} {u u' : Updater σ}
    {source : Source} {r : Except Error Update.Report}
    (ends : Update.OneEnds w s source u.store.active
      (upon (Fetch.fetch w s.fetch source) (Update.atFetch task source u)).1
      (upon (Fetch.fetch w s.fetch source) (Update.atFetch task source u)).2 r u')
    (heffect : Update.hasTakenEffect r = true) :
    (contentAt w s source (Update.atFetch task source u) = none ∧
      u'.store.unprobed = { u.store with durability := .relaxed }.unprobed) ∨
    ∃ (t : Taken σ) (staged : Store),
      contentAt w s source (Update.atFetch task source u) = some t ∧
      source.isFetchable = true ∧
      Store.ChangesOnly (·.isOf source.id (u.store.active + 1))
        { u.store with durability := .relaxed } staged ∧
      staged.itemsOf source.id (u.store.active + 1) =
        t.entries.map (Item.ofEntry source.id (u.store.active + 1)) ∧
      u'.store = (Update.replace staged source.id u.store.active
        (Update.newMetadata t.download)).synced := by
  have hstore : (upon (Fetch.fetch w s.fetch source) (Update.atFetch task source u)).2.store =
      { u.store with durability := .relaxed } := Fetch.fetch_store w s.fetch source _
  cases hfetch : upon (Fetch.fetch w s.fetch source) (Update.atFetch task source u) with
  | mk answer u₁ =>
    rw [hfetch] at ends hstore
    cases ends with
    | lost e e' m early =>
      rw [(Update.Unfinished.of_isLate early).hasTakenEffect] at heffect
      cases heffect
    | dropped d unread confined unfinished =>
      rw [unfinished.hasTakenEffect] at heffect
      cases heffect
    | unchanged remoteModified m =>
      refine .inl ⟨by rw [contentAt, hfetch], ?_⟩
      rw [← show u₁.store = { u.store with durability := .relaxed } from hstore]
      dsimp only
      split
      · exact u₁.store.setRemoteModified_unprobed source.id remoteModified
      · rfl
    | @updated _ u₂ _ d opened m read confined hcommit hunchanged items
    | @untabled _ u₂ d opened m read confined items =>
      exact .inr ⟨_, u₂.store, contentAt_read hfetch read, Update.fetch_isFetchable hfetch,
        hstore ▸ confined.store, items, rfl⟩

/-- What was taken over on a visit. -/
def takenOn (w : World σ) (s : Setup) (v : Visit σ) : Option (Taken σ) :=
  if v.settled.isKept then none else contentAt w s v.source v.before

/-! ### The ledger -/

/-- What is on record of a source. -/
structure Account (σ : Type) where
  /-- What was taken over last, if anything was since the source was cleared. -/
  latest : Option (Taken σ) := none
  /-- All that was taken over since the validators were last dropped, the latest first. -/
  trusted : List (Taken σ) := []

namespace Account

/-- The items that the source should have in a generation. -/
def items (a : Account σ) (id generation : Int) : List Item :=
  (a.latest.elim [] Taken.entries).map (Item.ofEntry id generation)

def take (a : Account σ) : Option (Taken σ) → Account σ
  | some t => { latest := some t, trusted := t :: a.trusted }
  | none => a

end Account

structure Ledger (σ : Type) where
  /-- How many runs over all sources committed. -/
  commits : Nat := 0
  /-- How many have put in force what they took over, and then failed to make the table anew. -/
  untabled : Nat := 0
  account : Int → Account σ := fun _ => {}
  /-- The entries that the user has. -/
  user : List Entry := []

namespace Ledger

/-- The ledger with one account changed. -/
def amend (l : Ledger σ) (id : Int) (f : Account σ → Account σ) : Ledger σ :=
  { l with account := fun x => if x = id then f (l.account x) else l.account x }

/-- A known source that is registered for another role has no validators any more. -/
def recordRole (l : Ledger σ) (u : Updater σ) (r : Registration) : Ledger σ :=
  match u.store.sources.find? (·.location == Store.placeOf r) with
  | some old =>
    if old.allowList == r.allowList && old.redirects == r.redirects then l
    else l.amend old.id ({ · with trusted := [] })
  | none => l

def recordRemoval (l : Ledger σ) (u : Updater σ) (id : Int) : Ledger σ :=
  match u.store.remove id with
  | .ok _ => l.amend id fun _ => {}
  | .error _ => l

def recordEntry (l : Ledger σ) (u : Updater σ) (e : Entry) : Ledger σ :=
  match u.store.addUser e with
  | .ok _ => { l with user := l.user.filter (·.host != e.host) ++ [e] }
  | .error _ => l

/-- The visits whose sources' contents a run over all sources has put in force. -/
def adoptedVisits (w : World σ) (s : Setup) (task : Option String) (u : Updater σ) :
    List (Visit σ) :=
  if Update.hasTakenEffect (Update.updateAll w s task u).1 then Update.visitsOf w s task u else []

/-- A run over all sources clears the ones that are off. -/
def recordAll (l : Ledger σ) (u : Updater σ) (w : World σ) (s : Setup) (task : Option String) :
    Ledger σ :=
  { l with
    commits := l.commits +
      if Update.hasCommitted (Update.updateAll w s task u).1 then 1 else 0
    untabled := l.untabled +
      if Update.hasStorageFailed (Update.updateAll w s task u).1 then 1 else 0
    account := fun id =>
      if (Update.idle u.store).any (·.id == id) then {}
      else (l.account id).take
        ((Update.visitTo (adoptedVisits w s task u) id).bind (takenOn w s)) }

/-- A run over one source counts if it takes effect, and clears the source if it is off. -/
def recordOne (l : Ledger σ) (u : Updater σ) (w : World σ) (s : Setup) (id : Int)
    (task : Option String) : Ledger σ :=
  match u.store.source id with
  | .error _ => l
  | .ok source =>
    if !Update.hasTakenEffect (Update.updateOne w s id task u).1 || source.isUser then l
    else if source.enabled then
      l.amend id (·.take (contentAt w s source (Update.atFetch task source u)))
    else l.amend id fun _ => {}

/-- The ledger after an act on an updater. -/
def record (l : Ledger σ) (u : Updater σ) : Act σ → Ledger σ
  | .register r => l.recordRole u r
  | .setEnabled _ _ => l
  | .remove id => l.recordRemoval u id
  | .addUser e => l.recordEntry u e
  | .removeUser host => { l with user := l.user.filter (·.host != host) }
  | .check _ _ => l
  | .updateAll w s task => l.recordAll u w s task
  | .updateOne w s id task => l.recordOne u w s id task

/-! ### Runs on record -/

variable (l : Ledger σ)

/-- An account that takes nothing is as it was. -/
theorem amend_take_none (id : Int) : l.amend id (·.take none) = l := by
  simp [amend, Account.take]

/-- How many runs over all sources have put in force what they took over. -/
def adoptions : Nat := l.commits + l.untabled

theorem recordAll_adoptions (w : World σ) (s : Setup) (task : Option String) (u : Updater σ) :
    (l.recordAll u w s task).adoptions = l.adoptions +
      if Update.hasTakenEffect (Update.updateAll w s task u).1 then 1 else 0 := by
  rw [adoptions, adoptions, recordAll]
  dsimp only
  cases (Update.updateAll w s task u).1 with
  | ok report =>
    rw [Update.hasTakenEffect, Update.hasStorageFailed, Bool.or_false, if_neg Bool.false_ne_true]
    omega
  | error e =>
    rw [Update.hasTakenEffect, Update.hasCommitted, Bool.false_or, if_neg Bool.false_ne_true]
    omega

/-- A run over all sources either has withheld what it did or has put its visits in force, and the
ledger tells these apart. -/
theorem recordAll_cases (w : World σ) (s : Setup) (task : Option String) {u : Updater σ}
    (hk : u.store.Keyed) (hu : u.running = false) :
    ((l.recordAll u w s task).adoptions = l.adoptions ∧
      (∀ id, (l.recordAll u w s task).account id =
        if (Update.idle u.store).any (·.id == id) then {} else l.account id) ∧
      Update.Withheld true u.store (Update.updateAll w s task u).2.store) ∨
    ∃ start visits last, Update.FullRun w s u start visits last ∧
      last.control.stopped = false ∧ (l.recordAll u w s task).adoptions = l.adoptions + 1 ∧
      (∀ id, (l.recordAll u w s task).account id =
        if (Update.idle u.store).any (·.id == id) then {}
        else (l.account id).take ((Update.visitTo visits id).bind (takenOn w s))) ∧
      (Update.updateAll w s task u).2.store = Update.FullRun.outcome u last visits := by
  have hcount := l.recordAll_adoptions w s task u
  cases heffect : Update.hasTakenEffect (Update.updateAll w s task u).1 with
  | false =>
    obtain ⟨-, hw⟩ := Update.updateAll_withheld w s task u hk heffect
    rw [hu] at hw
    rw [heffect] at hcount
    refine .inl ⟨hcount, fun id => ?_, hw⟩
    simp [recordAll, adoptedVisits, heffect, Update.visitTo, Account.take]
  | true =>
    rw [heffect] at hcount
    have haccount : ∀ id, (l.recordAll u w s task).account id =
        if (Update.idle u.store).any (·.id == id) then {}
        else (l.account id).take
          ((Update.visitTo (Update.visitsOf w s task u) id).bind (takenOn w s)) := by
      intro id
      simp [recordAll, adoptedVisits, heffect]
    obtain ⟨start, last, run, going, hstore⟩ := Update.updateAll_effective w s task u heffect
    exact .inr ⟨start, _, last, run, going, hcount, haccount, hstore⟩

/-- A run over one source that takes no effect is not on record; one that does had nothing to
fetch, or has fetched the source. -/
theorem recordOne_cases (w : World σ) (s : Setup) (id : Int) (task : Option String)
    {u : Updater σ} (hk : u.store.Keyed) :
    (l.recordOne u w s id task = l ∧
      Update.Withheld false u.store (Update.updateOne w s id task u).2.store) ∨
    ∃ source ∈ u.store.sources,
      (source.isUser = true ∧ l.recordOne u w s id task = l ∧
        (Update.updateOne w s id task u).2.store = u.store.synced) ∨
      (source.isUser = false ∧ l.recordOne u w s id task = l.amend source.id (fun _ => {}) ∧
        (Update.updateOne w s id task u).2.store = (Update.forget u.store source.id).synced) ∨
      (source.isUser = false ∧ l.recordOne u w s id task = l.amend source.id
          (·.take (contentAt w s source (Update.atFetch task source u))) ∧
        ∃ r u', Update.hasTakenEffect r = true ∧ Update.OneEnds w s source u.store.active
            (upon (Fetch.fetch w s.fetch source) (Update.atFetch task source u)).1
            (upon (Fetch.fetch w s.fetch source) (Update.atFetch task source u)).2 r u' ∧
          (Update.updateOne w s id task u).2.store =
            { u'.store with durability := .normal }) := by
  cases heffect : Update.hasTakenEffect (Update.updateOne w s id task u).1 with
  | false =>
    obtain ⟨-, hw⟩ := Update.updateOne_withheld w s task u hk id heffect
    refine .inl ⟨?_, hw⟩
    rw [recordOne, heffect]
    split <;> rfl
  | true =>
    have hends := Update.updateOne_ends w s id task u
    generalize hr : (Update.updateOne w s id task u).1 = r at heffect hends
    generalize (Update.updateOne w s id task u).2.store = after at hends ⊢
    generalize (Update.updateOne w s id task u).2.control.stopped = halted at hends
    cases hends with
    | refused hr => cases heffect
    | early e why early =>
      rw [(Update.Unfinished.of_isLate early).hasTakenEffect] at heffect
      cases heffect
    -- whether or not the table could be made, a source with nothing to fetch is on record alike
    | @refreshed source _ hs hidle | @untabled source hs hidle =>
      obtain ⟨hmem, rfl⟩ := Store.mem_of_source hs
      cases huser : source.isUser with
      | true =>
        refine .inr ⟨source, hmem, .inl ⟨huser, ?_, ?_⟩⟩
        · simp [recordOne, hs, huser]
        · simp [Update.unfetched, huser]
      | false =>
        have hoff : source.enabled = false := by simpa [huser] using hidle
        refine .inr ⟨source, hmem, .inr (.inl ⟨huser, ?_, ?_⟩)⟩
        · simp [recordOne, hs, hr, heffect, huser, hoff]
        · simp [Update.unfetched, huser]
    | @fetched source _ u' _ hs huser ends henabled =>
      obtain ⟨hmem, rfl⟩ := Store.mem_of_source hs
      refine .inr ⟨source, hmem, .inr (.inr ⟨huser, ?_, r, u', heffect, ends, rfl⟩)⟩
      simp [recordOne, hs, hr, heffect, huser, henabled]

end Ledger

/-! ### Histories -/

/-- An updater with a new store. -/
def fresh (world : σ) : Updater σ := { store := Store.empty, world }

/-- The updater after a history, and the ledger of it. -/
def course (world : σ) (acts : List (Act σ)) : Updater σ × Ledger σ :=
  acts.foldl (fun c a => (a.perform c.1, c.2.record c.1 a)) (fresh world, {})

/-- **What holds of a new store and passes through every act holds after every history.** Between
acts no run is under way. -/
theorem course_induction {p : Updater σ → Ledger σ → Prop} (world : σ)
    (start : p (fresh world) {})
    (step : ∀ u l a, u.running = false → p u l → p (a.perform u) (l.record u a))
    (acts : List (Act σ)) :
    p (course world acts).1 (course world acts).2 ∧ (course world acts).1.running = false := by
  have hfold : ∀ (u : Updater σ) (l : Ledger σ), u.running = false → p u l →
      p (acts.foldl (fun c a => (a.perform c.1, c.2.record c.1 a)) (u, l)).1
        (acts.foldl (fun c a => (a.perform c.1, c.2.record c.1 a)) (u, l)).2 ∧
      (acts.foldl (fun c a => (a.perform c.1, c.2.record c.1 a)) (u, l)).1.running = false := by
    induction acts with
    | nil => exact fun u l hu hp => ⟨hp, hu⟩
    | cons a acts ih =>
      exact fun u l hu hp => ih (a.perform u) (l.record u a) (a.perform_running hu) (step u l a hu hp)
  exact hfold (fresh world) {} rfl start

end Sinkhole.History
