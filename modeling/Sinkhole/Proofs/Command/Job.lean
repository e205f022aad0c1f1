import Sinkhole.Command.Job
import Sinkhole.Proofs.Disk
import Sinkhole.Proofs.Text.Lossy

/-! What jobs do to a disk.

A job under the lock first leaves the lock beside the store, then the store itself
with the configured sources in it, and then what it is about. Nothing that was on the
disk is in the way of that or goes with it: only missing folders, a missing lock and
the store are written, so the configuration is still where it was. -/
namespace Sinkhole

namespace Disk

/-- The store that a path leads to; a new one where there is none. -/
def stored (d : Disk) (path : String) : Store :=
  match d.at? (d.trail path) with
  | some (.store s) => s
  | _ => Store.empty

/-- All that was done was to fill missing places on a way, with folders or empty files. -/
structure Grown (way : Trail) (d d' : Disk) : Prop where
  sound : d'.Sound
  here : d'.here = d.here
  others : ∀ p, d'.at? p = d.at? p ∨ d.at? p = none ∧ p <+: way ∧
    (d'.at? p = some .folder ∨ ∃ modified, d'.at? p = some (.file [] modified))

theorem Made.grown {way : Trail} {d d' : Disk} (h : Made way d d') : Grown way d d' where
  sound := h.sound
  here := h.here
  others := fun p => (h.others p).imp_right fun ⟨hnone, hway⟩ =>
    ⟨hnone, hway, .inl (h.folders p hway)⟩

/-- The way to the folder of a path is a part of the way where the path leads. -/
theorem Made.leads {path : String} {d d' : Disk} (h : Made (d.way path) d d')
    (hfree : d'.at? (d.trail path) ≠ some .folder) : Grown (d.trail path) d d' := by
  obtain ⟨name, hname⟩ := h.trail_eq_concat hfree
  refine ⟨h.sound, h.here, fun p => (h.others p).imp_right fun ⟨hnone, hway⟩ => ?_⟩
  exact ⟨hnone, hname ▸ hway.trans (List.prefix_append _ _), .inl (h.folders p hway)⟩

namespace Grown

variable {way : Trail} {d d' : Disk}

theorem locked (h : Grown way d d') (locked : List Trail) : Grown way d { d' with locked } :=
  ⟨⟨h.sound.inFolders, h.sound.here⟩, h.here, h.others⟩

/-- An empty file is put at the end of the way. -/
theorem fill (h : Grown way d d') (hnone : d'.at? way = none) {modified : Option Time.Instant}
    (hsound : (d'.put way (.file [] modified)).Sound) :
    Grown way d (d'.put way (.file [] modified)) where
  sound := hsound
  here := h.here
  others := by
    intro p
    by_cases hp : p = way
    · subst hp
      have hfree : d'.at? p ≠ some .folder := by simp [hnone]
      refine .inr ⟨?_, List.prefix_refl _,
        .inr ⟨modified, Disk.at?_put_self (Disk.root_ne_of_free hfree)⟩⟩
      obtain hsame | ⟨hnone', -⟩ := h.others p
      · exact hsame ▸ hnone
      · exact hnone'
    · rw [Disk.at?_put_of_ne hp]
      exact h.others p

end Grown

/-- No store comes or goes that way. -/
theorem Grown.stored {way : Trail} {d d' : Disk} (h : Grown way d d') (path : String) :
    d'.stored path = d.stored path := by
  unfold Disk.stored
  rw [trail_congr h.here]
  obtain hsame | ⟨hnone, -, hfolder | ⟨modified, hfile⟩⟩ := h.others (d.trail path)
  · rw [hsame]
  · rw [hnone, hfolder]
  · rw [hnone, hfile]

end Disk

namespace Job

open Disk (Sound Made Grown)

variable {α β : Type} {d d' : Disk}

/-- What comes of a job on a disk, and the disk after it. -/
def upon (job : Job α) (d : Disk) : Except Failure α × Disk := job.run.run d

/-! ### Parts one after the other -/

theorem upon_bind (job : Job α) (next : α → Job β) (d : Disk) :
    upon (job >>= next) d = match upon job d with
      | (.ok a, d') => upon (next a) d'
      | (.error e, d') => (.error e, d') := by
  unfold upon
  simp only [ExceptT.run_bind, StateT.run_bind]
  cases StateT.run job.run d with
  | mk r d' => cases r <;> rfl

theorem upon_bind_of_ok {job : Job α} {next : α → Job β} {a : α} (h : upon job d = (.ok a, d')) :
    upon (job >>= next) d = upon (next a) d' := by
  rw [upon_bind, h]

/-- A job in two parts that was done had a result from each. -/
theorem of_upon_bind {job : Job α} {next : α → Job β} {b : β}
    (h : upon (job >>= next) d = (.ok b, d')) :
    ∃ a d₁, upon job d = (.ok a, d₁) ∧ upon (next a) d₁ = (.ok b, d') := by
  rw [upon_bind] at h
  cases hj : upon job d with
  | mk r d₁ =>
    rw [hj] at h
    cases r with
    | ok a => exact ⟨a, d₁, rfl, h⟩
    | error e => cases h

theorem of_upon_ofResult {ε : Type} {failure : ε → Failure} {result : Except ε α} {a : α}
    (h : upon (ofResult failure result) d = (.ok a, d')) : result = .ok a ∧ d' = d := by
  cases result with
  | ok a' =>
    cases h
    exact ⟨rfl, rfl⟩
  | error e => cases h

theorem upon_ofResult {ε : Type} (failure : ε → Failure) (a : α) (d : Disk) :
    upon (ofResult failure (.ok a)) d = (.ok a, d) := rfl

theorem upon_loadConfig {path : String} {c : Config} (h : configOn d path = .ok c) :
    upon (loadConfig path) d = (.ok c, d) := by
  show upon (ofResult (.badConfig path) (configOn d path)) d = _
  rw [h]
  rfl

/-! ### The lock -/

theorem lockOn_grown {path : String} (h : d.Sound) (hpath : path.isEmpty = false)
    (hlock : lockOn d path = .ok d') : Grown (d.trail path) d d' := by
  unfold lockOn at hlock
  split at hlock
  · cases hlock
  · rename_i d₁ hmake
    have hmade := Disk.makeParent_made h hmake
    have htrail : d₁.trail = d.trail := Disk.trail_congr hmade.here
    dsimp only [Disk.save] at hlock
    rw [htrail] at hlock
    split at hlock
    · cases hlock
    · -- the file that is locked is there already
      rename_i node hnode hfind
      split at hlock
      · cases hlock
      · have hfree : d₁.at? (d.trail path) ≠ some .folder := by
          rw [← htrail, Disk.at?_of_find hfind]
          exact fun he => hnode (Option.some.inj he)
        exact Except.ok.inj hlock ▸ (hmade.leads hfree).locked _
    · rename_i hfind
      have hnone : d₁.at? (d.trail path) = none := by
        cases hat : d₁.at? (d.trail path) with
        | none => rfl
        | some node =>
          rw [hmade.sound.find_of_at? hpath (htrail ▸ hat)] at hfind
          cases hfind
      have hfree : d₁.at? (d.trail path) ≠ some .folder := by simp [hnone]
      have hfilled := (hmade.leads hfree).fill hnone (hmade.put_sound hfree (.file [] d₁.now))
      exact Except.ok.inj hlock ▸ hfilled.locked _
    · cases hlock

/-! ### The store -/

theorem named_of_lasting {database : String} (h : isPassing database = false) :
    database.isEmpty = false := by
  unfold isPassing at h
  exact (Bool.or_eq_false_iff.mp h).1

theorem storeAt_stored {database : String} {s : Store} (h : d.Sound)
    (hpath : database.isEmpty = false) (hat : storeAt d database = .ok s) :
    d.at? (d.trail database) ≠ some .folder ∧ s = (d.stored database).reopened := by
  unfold Disk.stored
  cases hnode : d.at? (d.trail database) with
  | none =>
    obtain ⟨e, hfind⟩ := Disk.find_of_at?_none hnode
    rw [storeAt, hfind] at hat
    cases hat
    exact ⟨nofun, rfl⟩
  | some node =>
    rw [storeAt, h.find_of_at? hpath hnode] at hat
    cases node with
    | folder => cases hat
    | store s₀ =>
      cases hat
      exact ⟨by simp, rfl⟩
    | file content modified =>
      dsimp only at hat
      split at hat
      · cases hat
        exact ⟨by simp, rfl⟩
      · cases hat

/-- What comes of opening a store that lasts. -/
structure Opened (d : Disk) (database : String) (s : Store) (d' : Disk) : Prop where
  store : s = (d.stored database).reopened
  sound : d'.Sound
  here : d'.here = d.here
  kept : d'.at? (d.trail database) = some (.store s)
  folders : ∀ q, q <+: d.way database → d'.at? q = some .folder
  others : ∀ p, p ≠ d.trail database → d'.at? p = d.at? p ∨
    d.at? p = none ∧ p <+: d.trail database

theorem openOn_opened {database : String} {s : Store} (h : d.Sound)
    (hlasts : isPassing database = false) (hopen : openOn d database = .ok (s, d')) :
    Opened d database s d' := by
  have hpath := named_of_lasting hlasts
  unfold openOn at hopen
  rw [hlasts, if_neg Bool.false_ne_true] at hopen
  split at hopen
  · cases hopen
  · rename_i d₁ hmake
    split at hopen
    · cases hopen
    · rename_i s' hat
      injection hopen with hopen
      obtain ⟨rfl, rfl⟩ := Prod.mk.inj hopen
      have hmade := Disk.makeParent_made h hmake
      have htrail : d₁.trail = d.trail := Disk.trail_congr hmade.here
      obtain ⟨hfree, hstore⟩ := storeAt_stored hmade.sound hpath hat
      rw [htrail] at hfree ⊢
      have hput := hmade.put_sound hfree (.store s')
      have hstored := hmade.grown.stored database
      refine ⟨hstored ▸ hstore, hput, hmade.here,
        Disk.at?_put_self (Disk.root_ne_of_free hfree), fun q hq => ?_, fun p hp => ?_⟩
      · have hne : q ≠ d.trail database := by
          rintro rfl
          exact hfree (hmade.folders _ hq)
        rw [Disk.at?_put_of_ne hne]
        exact hmade.folders q hq
      · rw [Disk.at?_put_of_ne hp]
        exact ((hmade.leads hfree).others p).imp_right fun ⟨hnone, hway, _⟩ => ⟨hnone, hway⟩

/-- The store that a configuration opens, with its sources registered. -/
def opened (d : Disk) (c : Config) : Store := (d.stored c.database).reopened.upsertAll c.sources

/-- A disk that holds a store where a configuration has it, and `n` at the configuration's path. -/
structure Holds (path database : String) (s : Store) (n : Option Node) (d : Disk) : Prop where
  sound : d.Sound
  store : d.at? (d.trail database) = some (.store s)
  folders : ∀ q, q <+: d.way database → d.at? q = some .folder
  config : path.isEmpty = false → d.trail path ≠ d.trail database ∧ d.at? (d.trail path) = n

namespace Holds

variable {path database : String} {s : Store} {n : Option Node}

theorem locked (h : Holds path database s n d) (locked : List Trail) :
    Holds path database s n { d with locked } :=
  ⟨⟨h.sound.inFolders, h.sound.here⟩, h.store, h.folders, h.config⟩

theorem ne_of_folder (h : Holds path database s n d) {q : Trail} (hq : d.at? q = some .folder) :
    q ≠ d.trail database := by
  rintro rfl
  rw [h.store] at hq
  cases hq

theorem put_store (h : Holds path database s n d) (s' : Store) :
    Holds path database s' n (d.put (d.trail database) (.store s')) := by
  have hfree : d.at? (d.trail database) ≠ some .folder := by simp [h.store]
  refine ⟨h.sound.put hfree (h.sound.inFolders _ _ h.store),
    Disk.at?_put_self (Disk.root_ne_of_free hfree), fun q hq => ?_, fun hpath => ?_⟩
  · have hfolder := h.folders q hq
    exact (Disk.at?_put_of_ne (h.ne_of_folder hfolder)).trans hfolder
  · obtain ⟨hne, hat⟩ := h.config hpath
    exact ⟨hne, (Disk.at?_put_of_ne hne).trans hat⟩

/-- Whether there is a configuration where one is looked for. -/
theorem holds_eq (h : Holds path database s n d) (hpath : path.isEmpty = false) :
    d.holds path = n.isSome := by
  obtain ⟨-, hat⟩ := h.config hpath
  cases n with
  | none =>
    obtain ⟨e, hfind⟩ := Disk.find_of_at?_none hat
    rw [Disk.holds, hfind]
    rfl
  | some node =>
    rw [Disk.holds, h.sound.find_of_at? hpath hat]
    rfl

theorem save_config {node : Node} (h : Holds path database s (some node) d)
    (hpath : path.isEmpty = false) (hnode : node ≠ .folder) (content : List UInt8) :
    Holds path database s (some (.file content d.now)) (d.save path content) := by
  obtain ⟨hne, hat⟩ := h.config hpath
  have hfree : d.at? (d.trail path) ≠ some .folder := by simpa [hat] using hnode
  have hother : ∀ {q}, d.at? q = some .folder → q ≠ d.trail path := by
    rintro q hq rfl
    exact hfree hq
  refine ⟨h.sound.put hfree (h.sound.inFolders _ _ hat), ?_, fun q hq => ?_, fun _ => ⟨hne, ?_⟩⟩
  · exact (Disk.at?_put_of_ne (Ne.symm hne)).trans h.store
  · have hfolder := h.folders q hq
    exact (Disk.at?_put_of_ne (hother hfolder)).trans hfolder
  · exact Disk.at?_put_self (Disk.root_ne_of_free hfree)

end Holds

theorem upon_saveStore {c : Config} {s : Store} {path : String} {n : Option Node}
    (h : Holds path c.database s n d) (hlasts : isPassing c.database = false) (s' : Store) :
    ∃ d', upon (saveStore c s') d = (.ok (), d') ∧ Holds path c.database s' n d' := by
  refine ⟨d.put (d.trail c.database) (.store s'), ?_, h.put_store s'⟩
  show (Except.ok (), if isPassing c.database then d else _) = _
  rw [hlasts]
  rfl

/-! ### Opening the store -/

/-- Where there is no configuration on the way to the store or to its lock. -/
structure Apart (d : Disk) (path : String) (c : Config) : Prop where
  database : path.isEmpty = false → ¬d.trail path <+: d.trail c.database
  lock : path.isEmpty = false → ¬d.trail path <+: d.trail c.lockPath

theorem lockPath_isEmpty (c : Config) : c.lockPath.isEmpty = false := by
  have hchild : ∀ path name : List Char, name ≠ [] → Path.child path name ≠ [] := by
    intro path name hname
    unfold Path.child
    split <;> simp [hname]
  unfold Config.lockPath Path.withFileName
  dsimp only
  split <;> simp [hchild]

/-- What was filled on the way to the lock has no part in what is opened. -/
theorem opened_grown {way : Trail} (h : Grown way d d') (c : Config) :
    opened d' c = opened d c := by
  rw [opened, opened, h.stored]

theorem of_upon_openStore {c : Config} {s : Store} {path : String} (hs : d.Sound)
    (hlasts : isPassing c.database = false)
    (hapart : path.isEmpty = false → ¬d.trail path <+: d.trail c.database)
    (h : upon (openStore c) d = (.ok s, d')) :
    s = opened d c ∧ Holds path c.database s (d.at? (d.trail path)) d' := by
  have hparts : upon (do
      let x ← ofResult (.noStore c.database) (openOn d c.database)
      set x.2
      saveStore c (x.1.upsertAll c.sources)
      return x.1.upsertAll c.sources) d = (.ok s, d') := h
  obtain ⟨⟨s₀, d₁⟩, d₀, hresult, hrest⟩ := of_upon_bind hparts
  obtain ⟨hopen, -⟩ := of_upon_ofResult hresult
  have hopened := openOn_opened hs hlasts hopen
  have htrail : d₁.trail = d.trail := Disk.trail_congr hopened.here
  have hholds : Holds path c.database s₀ (d.at? (d.trail path)) d₁ := by
    refine ⟨hopened.sound, htrail ▸ hopened.kept, Disk.way_congr hopened.here ▸ hopened.folders,
      fun hpath => ?_⟩
    rw [htrail]
    have hne : d.trail path ≠ d.trail c.database := fun he =>
      hapart hpath (he ▸ List.prefix_refl _)
    refine ⟨hne, ?_⟩
    obtain hsame | ⟨-, hway⟩ := hopened.others _ hne
    · exact hsame
    · exact absurd hway (hapart hpath)
  obtain ⟨d₂, hsave, hholds'⟩ := upon_saveStore hholds hlasts (s₀.upsertAll c.sources)
  have hleft : upon (do
      saveStore c (s₀.upsertAll c.sources)
      return s₀.upsertAll c.sources) d₁ = (.ok s, d') := hrest
  rw [upon_bind_of_ok hsave] at hleft
  cases hleft
  exact ⟨by rw [opened, hopened.store], hholds'⟩

theorem upon_holding (path : String) (job : Job α) (d : Disk) :
    upon (holding path job) d = match lockOn d path with
      | .error e => (.error (.locked e), d)
      | .ok d₁ => ((upon job d₁).1,
          { (upon job d₁).2 with locked := (upon job d₁).2.locked.erase (d.trail path) }) := by
  have hrun : upon (holding path job) d = StateT.run (match lockOn d path with
      | .error e => return .error (.locked e)
      | .ok d₁ => do
        set d₁
        let result ← job.run
        modify fun d₂ => { d₂ with locked := d₂.locked.erase (d.trail path) }
        return result) d := rfl
  rw [hrun]
  cases lockOn d path <;> rfl

/-- **Under the lock a job finds the store opened and the configuration as it was.** -/
theorem of_upon_writing {c : Config} {path : String} {job : Store → Job α} {a : α} (hs : d.Sound)
    (hlasts : isPassing c.database = false) (hapart : Apart d path c)
    (h : upon (writing c job) d = (.ok a, d')) :
    ∃ d₁ d₂ locked, Holds path c.database (opened d c) (d.at? (d.trail path)) d₁ ∧
      upon (job (opened d c)) d₁ = (.ok a, d₂) ∧ d' = { d₂ with locked } := by
  rw [writing, upon_holding] at h
  cases hlock : lockOn d c.lockPath with
  | error e =>
    rw [hlock] at h
    cases h
  | ok d₀ =>
    rw [hlock] at h
    obtain ⟨hresult, rfl⟩ := Prod.mk.inj h
    have hgrown := lockOn_grown hs (lockPath_isEmpty c) hlock
    have htrail : d₀.trail = d.trail := Disk.trail_congr hgrown.here
    obtain ⟨s, d₁, hopen, hjob⟩ := of_upon_bind (Prod.ext hresult rfl)
    obtain ⟨rfl, hholds⟩ := of_upon_openStore hgrown.sound hlasts
      (by rw [htrail]; exact hapart.database) hopen
    rw [opened_grown hgrown] at hholds hjob
    refine ⟨d₁, _, _, ⟨hholds.sound, hholds.store, hholds.folders, fun hpath => ?_⟩, hjob, rfl⟩
    obtain ⟨hne, hat⟩ := hholds.config hpath
    refine ⟨hne, hat.trans ?_⟩
    rw [htrail]
    obtain hsame | ⟨-, hway, -⟩ := hgrown.others (d.trail path)
    · exact hsame
    · exact absurd hway (hapart.lock hpath)

/-! ### The configuration -/

theorem configOn_of_not_holds {path : String} (h : d.holds path = false) :
    configOn d path = .ok Config.standard := by
  rw [configOn, h, if_neg Bool.false_ne_true]

/-- What a configuration is depends on what is at its place alone. -/
theorem configOn_congr {path : String} (hs : d.Sound) (hs' : d'.Sound)
    (hat : path.isEmpty = false → d'.at? (d'.trail path) = d.at? (d.trail path)) :
    d'.holds path = d.holds path ∧ configOn d' path = configOn d path := by
  cases hpath : path.isEmpty with
  | true =>
    have hnone : ∀ d : Disk, d.holds path = false := by
      intro d
      rw [Disk.holds, Disk.find, hpath, if_pos rfl]
    rw [configOn_of_not_holds (hnone d'), configOn_of_not_holds (hnone d), hnone, hnone]
    exact ⟨rfl, rfl⟩
  | false =>
    cases hnode : d.at? (d.trail path) with
    | none =>
      obtain ⟨e, hfind⟩ := Disk.find_of_at?_none hnode
      obtain ⟨e', hfind'⟩ := Disk.find_of_at?_none ((hat hpath).trans hnode)
      constructor <;> simp [configOn, Disk.holds, hfind, hfind']
    | some node =>
      have hfind := hs.find_of_at? hpath hnode
      have hfind' := hs'.find_of_at? hpath ((hat hpath).trans hnode)
      constructor <;> simp [configOn, Disk.holds, Disk.read, hfind, hfind']

/-- A configuration that the notation of its file brings back as it is. -/
def ReadsBack (c : Config) : Prop := Config.ofText? c.text.toList = some c

/-- A configuration that was saved and is read back is the one that was saved. -/
theorem Holds.configOn_saved {path database : String} {s : Store} {c : Config}
    {modified : Option Time.Instant}
    (h : Holds path database s (some (.file (Text.encode c.text) modified)) d)
    (hpath : path.isEmpty = false) (hread : ReadsBack c) (hfine : c.complaint? = none) :
    configOn d path = .ok c := by
  have hfind := h.sound.find_of_at? hpath (h.config hpath).2
  have hholds : d.holds path = true := by rw [Disk.holds, hfind]
  have hbytes : d.read path = .ok (Text.encode c.text) := by rw [Disk.read, hfind]; rfl
  unfold ReadsBack at hread
  rw [configOn, hholds, if_pos rfl, hbytes]
  simp only [Except.mapError, Config.load, Text.decode?_encode, Config.ofFile, hread, hfine]

/-- A configuration is saved only where there is one, and then it is there. -/
theorem upon_saveConfig {path database : String} {s : Store} {n : Option Node} {c : Config}
    (h : Holds path database s n d) (hnode : path.isEmpty = false → n ≠ some .folder) :
    ∃ d' n', upon (saveConfig path c) d = (.ok (), d') ∧ Holds path database s n' d' ∧
      (d.holds path = false ∧ n' = n ∨ d.holds path = true ∧ path.isEmpty = false ∧
        ∃ modified, n' = some (.file (Text.encode c.text) modified)) := by
  have hrun : upon (saveConfig path c) d =
      (.ok (), if d.holds path then d.save path (Text.encode c.text) else d) := rfl
  rw [hrun]
  cases hholds : d.holds path with
  | false => exact ⟨d, n, rfl, h, .inl ⟨rfl, rfl⟩⟩
  | true =>
    have hpath : path.isEmpty = false := by
      by_contra hempty
      rw [Disk.holds, Disk.find, if_pos (by simpa using hempty)] at hholds
      cases hholds
    cases n with
    | none =>
      rw [h.holds_eq hpath] at hholds
      cases hholds
    | some node =>
      have hsaved := h.save_config hpath (fun he => hnode hpath (congrArg some he))
        (Text.encode c.text)
      exact ⟨_, _, rfl, hsaved, .inr ⟨rfl, hpath, _, rfl⟩⟩

/-! ### Opening the store again -/

/-- **The next command opens the store that was left, with the sources of the configuration that
was left.** -/
theorem Holds.reopens {path : String} {c : Config} {s : Store} {n : Option Node}
    (h : Holds path c.database s n d) (hlasts : isPassing c.database = false)
    (hconfig : configOn d path = .ok c) :
    ∃ d', upon (do openStore (← loadConfig path)) d =
      (.ok (s.reopened.upsertAll c.sources), d') := by
  have hpath := named_of_lasting hlasts
  have hopen : openOn d c.database = .ok (s.reopened,
      d.put (d.trail c.database) (.store s.reopened)) := by
    rw [openOn, hlasts, if_neg Bool.false_ne_true, Disk.makeParent_of_folders h.folders]
    simp only [storeAt, h.sound.find_of_at? hpath h.store]
  rw [upon_bind_of_ok (upon_loadConfig hconfig)]
  have hparts : upon (openStore c) d = upon (do
      let x ← ofResult (.noStore c.database) (openOn d c.database)
      set x.2
      saveStore c (x.1.upsertAll c.sources)
      return x.1.upsertAll c.sources) d := rfl
  rw [hparts, hopen, upon_bind_of_ok (upon_ofResult _ _ _)]
  exact ⟨_, rfl⟩

end Job

end Sinkhole
