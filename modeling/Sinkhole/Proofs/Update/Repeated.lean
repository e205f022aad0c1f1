import Sinkhole.Proofs.Update.Learned
import Sinkhole.Proofs.Update.Synced

/-! One run after the other, with nothing new in between.

Each source comes out of either run in its own way: it is taken over again, it keeps
what it has because it is unchanged, or because it cannot be had. Whichever it is, what
it holds after the second run was read from the same bytes as what it held before, so
the two runs leave the same rows (`SameItems`) and with them the same table. How much
each run remembers of a list may differ, and so may how often a blocked host is there.

That the bytes are the same is not enough by itself. The order in which entries arrive
is open, so a list that redirects one host to two targets may be read in two ways; and
what a source has in force may have been read with other flags than it has now. -/
namespace Sinkhole

namespace Update

open Work (upon)

variable {σ τ : Type}

/-! ### What a source delivers -/

/-- The bytes that a source delivers on its visit, if it is fetched anew and can be opened. -/
def Visit.delivered? (w : World σ) (s : Setup) (v : Visit σ) : Option (List UInt8) :=
  match upon (Fetch.fetch w s.fetch v.source) v.before with
  | (.ok (.downloaded d), u) =>
    match (d.content.opening w u.world).answer with
    | .ok opened => some opened.reading.bytes
    | .error _ => none
  | _ => none

/-- What is taken over was delivered, and all of it was read. -/
theorem Brings.reading_eq {w : World σ} {s : Setup} {v : Visit σ} {opened : Opened}
    (h : Brings w s v.source v.before opened) {bytes : List UInt8}
    (hbytes : v.delivered? w s = some bytes) : opened.reading = { bytes } := by
  obtain ⟨d, u, hfetch, hread⟩ := h
  have hdelivered : v.delivered? w s = some opened.reading.bytes := by
    simp [Visit.delivered?, hfetch, hread.answer]
  have hsame : opened.reading.bytes = bytes := Option.some.inj (hdelivered.symm.trans hbytes)
  have hsound := hread.sound
  generalize opened.reading = r at hsame hsound ⊢
  obtain ⟨bytes', fault⟩ := r
  rw [show bytes' = bytes from hsame, show fault = none from hsound]

/-- What a source has in force was read from these bytes, with the flags that it has now. -/
def ReadFrom (store : Store) (source : Source) (bytes : List UInt8) : Prop :=
  ∃ cap arrival, store.itemsOf source.id store.active =
    (Intake.entriesOf (Intake.Target.of source 0) { dedupCap := cap } { bytes } arrival).map
      (Item.ofEntry source.id store.active)

/-- The second run takes over nothing new: what a source delivers then is what it delivered in the
first, or, where the first left it with what it had, what that was read from. Besides, it can be
read in one way only. -/
def NothingNew (before : Store) (w : World σ) (s : Setup) (first : List (Visit σ)) (w' : World τ)
    (s' : Setup) (second : List (Visit τ)) : Prop :=
  ∀ v' ∈ second, v'.settled.isKept = false → ∃ bytes, v'.delivered? w' s' = some bytes ∧
    Store.Undivided (Intake.listed (Intake.Target.of v'.source 0) { bytes }) ∧
    ∀ v ∈ first, v.source.id = v'.source.id →
      (v.settled.isKept = false → v.delivered? w s = some bytes) ∧
      (v.settled.isKept = true → ReadFrom before v.source bytes)

/-! ### Two runs -/

/-- What a run without news leaves: the rows and the table that were there, one generation on. -/
structure Repeated (s s' : Store) : Prop where
  active : s'.active = s.active + 1
  generation : ∀ i ∈ s'.items, i.source ≠ Source.userId → i.generation = s'.active
  rows : ∀ id, Store.SameItems (s.owned id) (s'.owned id)
  user : s'.owned Source.userId = s.owned Source.userId
  table : s'.table = s.table
  sources : s'.sources.map (fun x => (x.id, x.registration)) =
    s.sources.map fun x => (x.id, x.registration)

theorem sourceAfter_registered (visits : List (Visit σ)) (x : Source) :
    (sourceAfter visits x).id = x.id ∧ (sourceAfter visits x).registration = x.registration :=
  ⟨sourceAfter_map (fun _ _ => rfl) (fun _ => rfl) visits x,
    sourceAfter_map (fun _ _ => rfl) (fun _ => rfl) visits x⟩

/-- Whether a source is to be fetched depends on its id and its registration. -/
theorem mem_fetchable_congr {s s' : Store} {x x' : Source} (hx : x ∈ s.sources)
    (hx' : x' ∈ s'.sources) (hid : x'.id = x.id) (hreg : x'.registration = x.registration) :
    x' ∈ fetchable s' ↔ x ∈ fetchable s := by
  have hlocation : x'.location = x.location := congrArg Registration.location hreg
  have henabled : x'.enabled = x.enabled := congrArg Registration.enabled hreg
  rw [mem_fetchable, mem_fetchable, Source.isUser, Source.isUser, hid, henabled,
    Source.isFetchable_congr hlocation]
  exact ⟨fun h => ⟨hx, h.2⟩, fun h => ⟨hx', h.2⟩⟩

theorem Target.of_congr {x x' : Source} (hid : x'.id = x.id)
    (hreg : x'.registration = x.registration) (generation : Int) :
    Intake.Target.of x' generation = Intake.Target.of x generation := by
  have hlabel : x'.label = x.label := congrArg Registration.label hreg
  have hallow : x'.allowList = x.allowList := congrArg Registration.allowList hreg
  have hredirects : x'.redirects = x.redirects := congrArg Registration.redirects hreg
  rw [Intake.Target.of, Intake.Target.of, hid, hlabel, Source.role, Source.role, hallow, hredirects]

section

variable {w : World σ} {s : Setup} {u start last : Updater σ} {visits : List (Visit σ)}
  {w' : World τ} {s' : Setup} {u' start' last' : Updater τ} {visits' : List (Visit τ)}

/-- Where nothing was edited in between, the two runs visit the same sources. -/
theorem FullRun.visited_again (run : FullRun w s u start visits last) (hk : u.store.Keyed)
    (going : last.control.stopped = false) (hnext : u'.store = FullRun.outcome u last visits)
    {x : Source} (hx : x ∈ u.store.sources) :
    sourceAfter visits x ∈ fetchable u'.store ↔ x ∈ fetchable u.store := by
  obtain ⟨hid, hreg⟩ := sourceAfter_registered visits x
  refine mem_fetchable_congr hx ?_ hid hreg
  rw [hnext, run.outcome_sources hk going]
  exact List.mem_map_of_mem hx

/-- A source that is visited in the second run was visited in the first. -/
theorem FullRun.visited_before (run : FullRun w s u start visits last) (hk : u.store.Keyed)
    (going : last.control.stopped = false) (hnext : u'.store = FullRun.outcome u last visits)
    (run' : FullRun w' s' u' start' visits' last') {v' : Visit τ} (hv' : v' ∈ visits') :
    ∃ v ∈ visits, v'.source = sourceAfter visits v.source := by
  have hplanned := run'.planned v' hv'
  have hmem := (mem_fetchable.mp hplanned).1
  rw [hnext, run.outcome_sources hk going, List.mem_map] at hmem
  obtain ⟨x, hx, hsource⟩ := hmem
  rw [← hsource, run.visited_again hk going hnext hx] at hplanned
  obtain ⟨v, hv, rfl⟩ := run.visited going hplanned
  exact ⟨v, hv, hsource.symm⟩

/-- A source that is taken over again holds what it held. -/
theorem Adopted.same_updated {before middle after : Store} (h : Adopted w s before visits middle)
    (h' : Adopted w' s' middle visits' after)
    (hnew : NothingNew before w s visits w' s' visits') {v : Visit σ} (hv : v ∈ visits)
    {v' : Visit τ} (hv' : v' ∈ visits') (hsource : v'.source = sourceAfter visits v.source)
    (hupdated : v'.settled.isKept = false) :
    Store.SameItems (middle.owned v'.source.id) (after.owned v'.source.id) := by
  obtain ⟨hid, hreg⟩ := sourceAfter_registered visits v.source
  rw [← hsource] at hid hreg
  obtain ⟨bytes, hbytes, hone, hsame⟩ := hnew v' hv' hupdated
  obtain ⟨hagain, hkept⟩ := hsame v hv hid.symm
  obtain ⟨learned', hsettled'⟩ : ∃ learned, v'.settled = .updated learned := by
    cases hs : v'.settled with
    | updated m => exact ⟨m, rfl⟩
    | _ => rw [hs] at hupdated; cases hupdated
  obtain ⟨opened', hbrings', howned'⟩ := h'.updated v' hv' learned' hsettled'
  have hreading' := hbrings'.reading_eq hbytes
  rw [Target.of_congr hid hreg] at hone
  rw [howned', Setup.itemsFrom_eq, Setup.entriesFrom, Target.of_congr hid hreg, hid, hreading']
  have hafter := fun generation => entriesOf_same hone s'.intake opened'.arrival v.source.id
    generation (middle.active + 1)
  cases hs : v.settled.isKept with
  | false =>
    obtain ⟨learned, hsettled⟩ : ∃ learned, v.settled = .updated learned := by
      cases hs' : v.settled with
      | updated m => exact ⟨m, rfl⟩
      | _ => rw [hs'] at hs; cases hs
    obtain ⟨opened, hbrings, howned⟩ := h.updated v hv learned hsettled
    rw [howned, Setup.itemsFrom_eq, Setup.entriesFrom, hbrings.reading_eq (hagain hs)]
    exact (entriesOf_same hone s.intake opened.arrival v.source.id _ _).symm.trans (hafter 0)
  | true =>
    obtain ⟨cap, arrival, hread⟩ := hkept hs
    rw [h.kept v hv hs, hread]
    have hbefore := entriesOf_same hone { dedupCap := cap } arrival v.source.id 0 before.active
    exact (hbefore.trans (.within _ _)).symm.trans (hafter 0)

/-- **Each source holds the same after the second run as after the first.** -/
theorem FullRun.repeated_owned (run : FullRun w s u start visits last) (hk : u.store.Keyed)
    (going : last.control.stopped = false) (hnext : u'.store = FullRun.outcome u last visits)
    (run' : FullRun w' s' u' start' visits' last') (hk' : u'.store.Keyed)
    (going' : last'.control.stopped = false)
    (hnew : NothingNew u.store w s visits w' s' visits') (id : Int) :
    Store.SameItems (u'.store.owned id) ((FullRun.outcome u' last' visits').owned id) := by
  have h : Adopted w s u.store visits u'.store := hnext ▸ run.adopted hk going
  have h' := run'.adopted hk' going'
  by_cases huser : id = Source.userId
  · rw [huser, h'.user]
    exact .of_eq rfl
  by_cases hvisited : ∃ v' ∈ visits', v'.source.id = id
  · obtain ⟨v', hv', rfl⟩ := hvisited
    obtain ⟨v, hv, hsource⟩ := run.visited_before hk going hnext run' hv'
    cases hs : v'.settled.isKept with
    | false => exact h.same_updated h' hnew hv hv' hsource hs
    | true =>
      rw [h'.kept v' hv' hs, h.itemsOf_active huser]
      exact .within _ _
  · -- a source that no run visits has nothing after either
    have hnone' : ∀ v' ∈ visits', v'.source.id ≠ id := fun v' hv' he => hvisited ⟨v', hv', he⟩
    have hnone : ∀ v ∈ visits, v.source.id ≠ id := by
      rintro v hv rfl
      have hplanned := run.planned v hv
      rw [← run.visited_again hk going hnext (mem_fetchable.mp hplanned).1] at hplanned
      obtain ⟨v', hv', hsource⟩ := run'.visited going' hplanned
      exact hnone' v' hv' (hsource ▸ (sourceAfter_registered visits v.source).1)
    rw [run'.owned_unvisited huser hnone', hnext, run.owned_unvisited huser hnone]
    exact .of_eq rfl

end

/-- **A second run over all sources changes nothing where it brings nothing new**: the table is
the same, and the rows of every source are the same but for how often a blocked host is there. -/
theorem updateAll_repeated (w : World σ) (s : Setup) (task : Option String) (u : Updater σ)
    (w' : World τ) (s' : Setup) (task' : Option String) (u' : Updater τ)
    {report report' : Report} (hk : u.store.Keyed)
    (h : (updateAll w s task u).1 = .ok report) (hc : report.committed = true)
    (hnext : u'.store = (updateAll w s task u).2.store)
    (h' : (updateAll w' s' task' u').1 = .ok report') (hc' : report'.committed = true)
    (hnew : NothingNew u.store w s (visitsOf w s task u) w' s' (visitsOf w' s' task' u')) :
    Repeated u'.store (updateAll w' s' task' u').2.store := by
  have hsync := updateAll_inSync w s task u h hc
  have hsync' := updateAll_inSync w' s' task' u' h' hc'
  obtain ⟨start, last, run, going, -, hstore⟩ := updateAll_committed w s task u h hc
  obtain ⟨start', last', run', going', -, hstore'⟩ := updateAll_committed w' s' task' u' h' hc'
  rw [← hnext] at hsync
  rw [hstore] at hnext
  have hadopted : Adopted w s u.store _ u'.store := hnext ▸ run.adopted hk going
  have hk' : u'.store.Keyed := by
    rw [Store.Keyed, hadopted.ids]
    exact hk
  have hadopted' := run'.adopted hk' going'
  have hrows := run.repeated_owned hk going hnext run' hk' going' hnew
  have hsources := run'.outcome_sources hk' going'
  rw [hstore'] at hsync' ⊢
  refine ⟨hadopted'.active, fun i hi hid => ?_, hrows, hadopted'.user, ?_, ?_⟩
  · rw [hadopted'.active]
    exact hadopted'.generation i hi hid
  · have halike : Store.Alike u'.store (FullRun.outcome u' last' (visitsOf w' s' task' u')) := by
      refine ⟨?_, fun x _ hid => ?_, hadopted'.user⟩
      · rw [hsources, List.map_map]
        refine List.map_congr_left fun x _ => ?_
        obtain ⟨hid, hreg⟩ := sourceAfter_registered (visitsOf w' s' task' u') x
        exact Prod.ext hid (congrArg Registration.enabled hreg)
      · rw [hadopted.itemsOf_active hid, hadopted'.itemsOf_active hid]
        exact hrows x.id
    rw [hsync'.2, hsync.2]
    exact halike.rebuild_eq
  · rw [hsources, List.map_map]
    refine List.map_congr_left fun x _ => ?_
    obtain ⟨hid, hreg⟩ := sourceAfter_registered (visitsOf w' s' task' u') x
    exact Prod.ext hid hreg

/-- The files as they are a while later: one was written again with what it held. -/
def rewritten : World Unit :=
  { shelf with
    facts := fun path world =>
      if path = "/new" then
        { answer := .ok { modified := some (.ofMicros 9), size := 4 }, world }
      else shelf.facts path world }

def atDeskAgain : Updater Unit :=
  { store := (updateAll shelf plain none atDesk).2.store, world := () }

/-- Of the sources of `assorted` one is taken over in either run, and the others keep what they
have. -/
theorem updateAll_repeated_assorted :
    (updateAll shelf plain none atDesk).1 = .ok assortedReport ∧
      (updateAll rewritten plain none atDeskAgain).1 =
        .ok { assortedReport with generation := 9 } ∧
      Repeated atDeskAgain.store (updateAll rewritten plain none atDeskAgain).2.store := by
  have hkeyed : atDesk.store.Keyed := by decide
  have hfirst : (updateAll shelf plain none atDesk).1 = .ok assortedReport := by decide +kernel
  have hnext : atDeskAgain.store = (updateAll shelf plain none atDesk).2.store := by
    rw [atDeskAgain]
  have hsecond : (updateAll rewritten plain none atDeskAgain).1 =
      .ok { assortedReport with generation := 9 } := by decide +kernel
  have hagain : ∀ v' ∈ visitsOf rewritten plain none atDeskAgain, v'.settled.isKept = false →
      v'.delivered? rewritten plain = some [97, 46, 98, 10] ∧
      Store.Undivided (Intake.listed (Intake.Target.of v'.source 0)
        { bytes := [97, 46, 98, 10] }) ∧
      ∀ v ∈ visitsOf shelf plain none atDesk, v.source.id = v'.source.id →
        v.settled.isKept = false ∧ v.delivered? shelf plain = some [97, 46, 98, 10] := by
    decide +kernel
  have hnew : NothingNew atDesk.store shelf plain (visitsOf shelf plain none atDesk) rewritten plain
      (visitsOf rewritten plain none atDeskAgain) := by
    intro v' hv' hupdated
    obtain ⟨hdelivered', hone, hfirst⟩ := hagain v' hv' hupdated
    refine ⟨_, hdelivered', hone, fun v hv hid => ?_⟩
    obtain ⟨hs, hdelivered⟩ := hfirst v hv hid
    exact ⟨fun _ => hdelivered, fun hkept => absurd (hs.symm.trans hkept) Bool.false_ne_true⟩
  exact ⟨hfirst, hsecond, updateAll_repeated shelf plain none atDesk rewritten plain none
    atDeskAgain hkeyed hfirst rfl hnext hsecond rfl hnew⟩

/-! ### The same bytes read in another way -/

/-- A store with one list, of which these entries are in force. -/
def holding (list : Source) (entries : List Entry) : Updater Unit :=
  { store :=
      { sources := [Store.userSource, list]
        lastId := list.id
        items := entries.map (Item.ofEntry list.id 7)
        table := []
        active := 7 }
    world := () }

/-- Files that were changed at one time and hold these bytes, whose entries arrive in this order;
without bytes they cannot be opened. -/
def filesWith (modified : Int) (bytes? : Option (List UInt8))
    (arrival : Option Intake.Arrival := none) : World Unit :=
  { shelf with
    facts := fun _ _ =>
      { answer := .ok { modified := some (.ofMicros modified), size := 4 }, world := () }
    openFile := fun _ _ =>
      { answer := match bytes? with
          | some bytes => .ok { reading := { bytes }, arrival }
          | none => .error "locked"
        world := () } }

/-- The entries of the last line first. -/
def backwards : Intake.Arrival where
  kept _ all := all.reverse
  sifted filtering all := (Intake.Sifted.refl filtering all).perm all.reverse_perm

/-- The bytes of a text of plain characters. -/
def plainBytes (text : String) : List UInt8 := text.toList.map fun c => c.toNat.toUInt8

/-- The updater for the next run after one over all sources. -/
def afterAll (w : World Unit) (u : Updater Unit) : Updater Unit :=
  { store := (updateAll w plain none u).2.store, world := () }

/-- A list that was read to block hosts and allows them now is read again after a run in which it
could not be; and one that redirects a host to two targets is read again, backwards. -/
theorem updateAll_reread :
    let blocking : Source := { id := 2, label := "new", location := "/new" }
    let one := plainBytes "a.b"
    let two := plainBytes "1.2.3.4 a.b\n5.6.7.8 a.b"
    (let u := holding { blocking with allowList := true } [.blocked "a.b"]
      let locked := filesWith 5 none
      let legible := filesWith 5 one
      Intake.listed (Intake.Target.of blocking 0) { bytes := one } = [.blocked "a.b"] ∧
        hasCommitted (updateAll locked plain none u).1 = true ∧
        hasCommitted (updateAll legible plain none (afterAll locked u)).1 = true ∧
        (afterAll locked u).store.ruling "a.b" = .blocked ∧
        (afterAll legible (afterAll locked u)).store.ruling "a.b" = .allowed) ∧
    (let u := holding { blocking with redirects := true } []
      let first := filesWith 5 two
      let second := filesWith 9 two backwards
      hasCommitted (updateAll first plain none u).1 = true ∧
        hasCommitted (updateAll second plain none (afterAll first u)).1 = true ∧
        (afterAll first u).store.ruling "a.b" = .redirected (.v4 #v[1, 2, 3, 4]) ∧
        (afterAll second (afterAll first u)).store.ruling "a.b" =
          .redirected (.v4 #v[5, 6, 7, 8])) := by
  decide +kernel

end Update

end Sinkhole
