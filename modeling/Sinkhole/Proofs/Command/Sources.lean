import Sinkhole.Proofs.Command.Job
import Sinkhole.Proofs.Command.Editing

/-! What a command about the sources leaves for the next one.

The store and the configuration are edited in one command, and whoever opens the store
next registers the configuration's sources in it again. So what the command did lasts
if the configuration says the same; without a configuration the standard one speaks,
and that is edited by nobody. -/
namespace Sinkhole.Command

open Job (Holds Apart upon)

variable {path : String} {d d' d₀ : Disk} {c c' : Config} {s : Store} {n : Option Node}

/-! ### Saving the configuration -/

/-- What is where the configuration is looked for, after it was edited. -/
def Kept (d : Disk) (path : String) (c c' : Config) (n : Option Node) : Prop :=
  n = d.at? (d.trail path) ∧ (d.holds path = false ∨ c' = c) ∨
    d.holds path = true ∧ path.isEmpty = false ∧
      ∃ modified, n = some (.file (Text.encode c'.text) modified)

theorem not_folder_of_configOn (hs : d.Sound) (hc : Job.configOn d path = .ok c)
    (hpath : path.isEmpty = false) : d.at? (d.trail path) ≠ some .folder := by
  intro hat
  have hfind := hs.find_of_at? hpath hat
  rw [Job.configOn, Disk.holds, Disk.read, hfind] at hc
  cases hc

theorem upon_saveConfig (hs : d₀.Sound) (hc : Job.configOn d₀ path = .ok c)
    (h : Holds path c.database s (d₀.at? (d₀.trail path)) d) (c' : Config) :
    ∃ d' n, upon (Job.saveConfig path c') d = (.ok (), d') ∧ Holds path c.database s n d' ∧
      Kept d₀ path c c' n := by
  have hholds : d.holds path = d₀.holds path :=
    (Job.configOn_congr hs h.sound fun hpath => (h.config hpath).2).1
  obtain ⟨d', n, hsave, hafter, hkept⟩ :=
    Job.upon_saveConfig (c := c') h (not_folder_of_configOn hs hc)
  refine ⟨d', n, hsave, hafter, ?_⟩
  rw [hholds] at hkept
  exact hkept.imp (fun hsame => ⟨hsame.2, .inl hsame.1⟩) id

theorem upon_editConfig (hs : d₀.Sound) (hc : Job.configOn d₀ path = .ok c)
    (h : Holds path c.database s (d₀.at? (d₀.trail path)) d) (location : String)
    (edit : Registration → List Registration → List Registration) :
    ∃ d' n, upon (editConfig path c location edit) d = (.ok (), d') ∧
      Holds path c.database s n d' ∧ Kept d₀ path c (c.editedAt location edit) n := by
  unfold editConfig Config.editedAt
  cases editAt location edit c.sources with
  | none => exact ⟨d, _, rfl, h, .inl ⟨rfl, .inr rfl⟩⟩
  | some edited => exact upon_saveConfig hs hc h _

/-! ### The commands -/

/-- What a command leaves on the disk. -/
def Leaves (d : Disk) (path : String) (c : Config) (command : SourcesCommand) (d' : Disk) : Prop :=
  ∃ n, Holds path c.database ((Job.opened d c).after command) n d' ∧
    Kept d path c (c.edited (Job.opened d c) command) n

/-- Adds a source whose registration there is nothing wrong with. -/
def addFine (path : String) (r : Registration) : Job (List String) := do
  let c ← Job.loadConfig path
  Job.writing c fun s => do
    Job.saveStore c (s.upsert r).2
    (if c.sources.any (·.location == r.location) then pure ()
      else Job.saveConfig path { c with sources := c.sources ++ [r] })
    return ["[OK] Added source " ++ toString (s.upsert r).1 ++ " '" ++ r.label ++ "'",
      "     Run 'hostsieve update' to fetch it"]

/-- Adding a source: two looks at its registration, and then the work under the lock. -/
theorem addSource_eq (path : String) (r : Registration) : addSource path r =
    if !Location.isSupported r.location then throw (.unsupportedLocation r.location)
    else if r.allowList && r.redirects then throw .redirectingAllowList
    else addFine path r := by
  unfold addSource addFine
  split
  · rfl
  · split
    · rfl
    · dsimp only
      refine bind_congr fun c => congrArg (Job.writing c) (funext fun s => ?_)
      obtain ⟨id, s'⟩ := s.upsert r
      refine bind_congr fun _ => ?_
      cases c.sources.any (·.location == r.location) <;> rfl

/-- What there is something wrong with is not added. -/
theorem of_upon_addSource {r : Registration} {lines : List String}
    (h : upon (addSource path r) d = (.ok lines, d')) :
    r.complaint? = none ∧ upon (addFine path r) d = (.ok lines, d') := by
  rw [addSource_eq] at h
  split at h
  · cases h
  · rename_i hsupported
    split at h
    · cases h
    · rename_i hboth
      exact ⟨by rw [Registration.complaint?, if_neg hsupported, if_neg hboth], h⟩

section Commands

variable {lines : List String} (hs : d.Sound) (hlasts : Job.isPassing c.database = false)
  (hapart : Apart d path c) (hc : Job.configOn d path = .ok c)

include hs hlasts hapart hc

theorem list_leaves (h : upon (runSources path .list) d = (.ok lines, d')) :
    Leaves d path c .list d' := by
  have hparts : upon (do
      let c ← Job.loadConfig path
      let s ← Job.openStore c
      return sourceList s.sources) d = (.ok lines, d') := h
  rw [Job.upon_bind_of_ok (Job.upon_loadConfig hc)] at hparts
  obtain ⟨s, d₁, hopen, hrest⟩ := Job.of_upon_bind hparts
  obtain ⟨rfl, hholds⟩ := Job.of_upon_openStore hs hlasts hapart.database hopen
  cases hrest
  exact ⟨_, hholds, .inl ⟨rfl, .inr rfl⟩⟩

theorem remove_leaves {id : Int} (h : upon (removeSource path id) d = (.ok lines, d')) :
    Leaves d path c (.remove id) d' := by
  rw [removeSource, Job.upon_bind_of_ok (Job.upon_loadConfig hc)] at h
  obtain ⟨d₁, d₂, locked, hopened, hjob, rfl⟩ := Job.of_upon_writing hs hlasts hapart h
  obtain ⟨source, d₃, hresult, hjob'⟩ := Job.of_upon_bind hjob
  obtain ⟨hsource, rfl⟩ := Job.of_upon_ofResult hresult
  obtain ⟨s, d₄, hresult', hrest⟩ := Job.of_upon_bind hjob'
  obtain ⟨hremove, rfl⟩ := Job.of_upon_ofResult hresult'
  obtain ⟨d₅, hsave, hremoved⟩ := Job.upon_saveStore hopened hlasts s
  obtain ⟨d₆, n, hedit, hedited, hkept⟩ :=
    upon_editConfig hs hc hremoved source.location fun _ rest => rest
  rw [Job.upon_bind_of_ok hsave, Job.upon_bind_of_ok hedit] at hrest
  obtain ⟨⟨summary, s'⟩, d₇, hresult'', hlast⟩ := Job.of_upon_bind hrest
  obtain ⟨hsync, rfl⟩ := Job.of_upon_ofResult hresult''
  obtain ⟨-, -, rfl⟩ := Store.sync_ok hsync
  obtain ⟨d₈, hsave', hsynced⟩ := Job.upon_saveStore hedited hlasts s.synced
  rw [Job.upon_bind_of_ok hsave'] at hlast
  cases hlast
  have hafter : (Job.opened d c).after (.remove id) = s.synced := by
    unfold Store.remove at hremove
    split at hremove
    · cases hremove
    · split at hremove
      · rw [← Except.ok.inj hremove]
        rfl
      · cases hremove
  have hedit : c.edited (Job.opened d c) (.remove id) =
      c.editedAt source.location fun _ rest => rest := by
    rw [Config.edited, hsource]
  refine ⟨n, ?_, hedit ▸ hkept⟩
  rw [hafter]
  exact hsynced.locked locked

theorem switch_leaves {id : Int} {enabled : Bool} (hd : (Job.opened d c).Keyed)
    (h : upon (setSourceEnabled path id enabled) d = (.ok lines, d')) :
    ∃ n, Holds path c.database ((Job.opened d c).modifySource id ({ · with enabled })) n d' ∧
      Kept d path c (c.switched (Job.opened d c) id enabled) n := by
  rw [setSourceEnabled, Job.upon_bind_of_ok (Job.upon_loadConfig hc)] at h
  obtain ⟨d₁, d₂, locked, hopened, hjob, rfl⟩ := Job.of_upon_writing hs hlasts hapart h
  obtain ⟨source, d₃, hresult, hjob'⟩ := Job.of_upon_bind hjob
  obtain ⟨hsource, rfl⟩ := Job.of_upon_ofResult hresult
  rw [Config.switched, hsource]
  dsimp only
  by_cases hsame : source.enabled = enabled
  · rw [if_pos hsame] at hjob' ⊢
    cases hjob'
    obtain ⟨hmem, rfl⟩ := Store.mem_of_source hsource
    rw [hd.modifySource_same hmem (by rw [← hsame])]
    exact ⟨_, hopened.locked locked, .inl ⟨rfl, .inr rfl⟩⟩
  · rw [if_neg hsame] at hjob' ⊢
    obtain ⟨s, d₄, hresult', hrest⟩ := Job.of_upon_bind hjob'
    obtain ⟨hset, rfl⟩ := Job.of_upon_ofResult hresult'
    obtain ⟨d₅, hsave, hswitched⟩ := Job.upon_saveStore hopened hlasts s
    obtain ⟨d₆, n, hedit, hedited, hkept⟩ :=
      upon_editConfig hs hc hswitched source.location fun r rest => { r with enabled } :: rest
    rw [Job.upon_bind_of_ok hsave, Job.upon_bind_of_ok hedit] at hrest
    cases hrest
    unfold Store.setEnabled at hset
    split at hset
    · injection hset with hs
      rw [hs]
      exact ⟨n, hedited.locked locked, hkept⟩
    · cases hset

theorem add_leaves {r : Registration} (h : upon (addSource path r) d = (.ok lines, d')) :
    ∃ n, Holds path c.database ((Job.opened d c).upsert r).2 n d' ∧
      Kept d path c (c.listed r) n := by
  obtain ⟨-, hadd⟩ := of_upon_addSource h
  rw [addFine, Job.upon_bind_of_ok (Job.upon_loadConfig hc)] at hadd
  obtain ⟨d₁, d₂, locked, hopened, hjob, rfl⟩ := Job.of_upon_writing hs hlasts hapart hadd
  obtain ⟨d₃, hsave, hadded⟩ := Job.upon_saveStore hopened hlasts ((Job.opened d c).upsert r).2
  rw [Job.upon_bind_of_ok hsave] at hjob
  unfold Config.listed
  by_cases hlisted : c.sources.any (·.location == r.location)
  · rw [if_pos hlisted] at hjob ⊢
    cases hjob
    exact ⟨_, hadded.locked locked, .inl ⟨rfl, .inr rfl⟩⟩
  · obtain ⟨d₄, n, hlist, hkept, hn⟩ :=
      upon_saveConfig hs hc hadded { c with sources := c.sources ++ [r] }
    rw [if_neg hlisted, Job.upon_bind_of_ok hlist] at hjob
    cases hjob
    rw [if_neg hlisted]
    exact ⟨n, hkept.locked locked, hn⟩

/-- A command that was done leaves the store and the configuration edited, and does not add what
there is something wrong with. -/
theorem leaves {command : SourcesCommand} (hd : (Job.opened d c).Keyed)
    (h : upon (runSources path command) d = (.ok lines, d')) :
    Leaves d path c command d' ∧ ∀ location label allow redirects disabled,
      command = .add location label allow redirects disabled →
      (Registration.given location label allow redirects disabled).complaint? = none := by
  cases command with
  | list => exact ⟨list_leaves hs hlasts hapart hc h, nofun⟩
  | add location label allow redirects disabled =>
    refine ⟨add_leaves hs hlasts hapart hc h, fun _ _ _ _ _ he => ?_⟩
    cases he
    exact (of_upon_addSource h).1
  | remove id => exact ⟨remove_leaves hs hlasts hapart hc h, nofun⟩
  | enable id => exact ⟨switch_leaves hs hlasts hapart hc hd h, nofun⟩
  | disable id => exact ⟨switch_leaves hs hlasts hapart hc hd h, nofun⟩

end Commands

/-! ### The next command -/

/-- Whether a source of the standard configuration is at a place. -/
def isStandardPlace (place : String) : Bool :=
  Config.standardSources.any (·.location == place)

theorem standard_placed : ∀ r ∈ Config.standardSources, r.placed = r := by decide +kernel

theorem standard_placeOf (r : Registration) (hr : r ∈ Config.standardSources) :
    Store.placeOf r = r.location := congrArg Registration.location (standard_placed r hr)

theorem standard_last : ∀ r ∈ Config.standardSources,
    Registration.lastAt Config.standardSources r.location = some r := by decide +kernel

theorem standard_fine : Config.standard.complaint? = none := by decide +kernel

theorem fine_of_configOn (hc : Job.configOn d path = .ok c) : c.complaint? = none := by
  cases hholds : d.holds path with
  | false =>
    rw [Job.configOn_of_not_holds hholds] at hc
    exact Except.ok.inj hc ▸ standard_fine
  | true =>
    rw [Job.configOn, hholds, if_pos rfl] at hc
    unfold Config.load at hc
    split at hc
    · cases hc
    · split at hc
      · cases hc
      · unfold Config.ofFile at hc
        split at hc
        · cases hc
        · split at hc
          · cases hc
          · rename_i hfine
            injection hc with hc
            exact hc ▸ hfine

/-- What the store says of the sources besides the standard ones. -/
def besideStandard (s : Store) : List (Int × Registration) :=
  s.registrations.filter fun e => !isStandardPlace e.2.location

theorem upsertAll_besideStandard {s : Store} (hd : s.Distinct) {rs : List Registration}
    (hrs : ∀ r ∈ rs, r ∈ Config.standardSources) :
    besideStandard (s.upsertAll rs) = besideStandard s := by
  induction rs generalizing s with
  | nil => rfl
  | cons r rs ih =>
    obtain ⟨hr, hrs⟩ := List.forall_mem_cons.mp hrs
    refine (ih (hd.upsert r) hrs).trans ?_
    unfold besideStandard Store.registrations
    rw [List.filter_map, List.filter_map, Store.upsert_filter hd fun x hloc => ?_]
    have hplace : r.location = x.location := (standard_placeOf r hr).symm.trans hloc.symm
    simpa [isStandardPlace] using ⟨r, hr, hplace⟩

/-- A store with all the standard sources as they are. -/
def HasStandard (s : Store) : Prop :=
  ∀ r ∈ Config.standardSources, ∃ x ∈ s.sources, x.registration = r

theorem hasStandard_of_follows {s : Store} (h : s.Follows Config.standardSources) :
    HasStandard s := by
  intro r hr
  obtain ⟨x, hx, hloc⟩ := h.there r hr
  refine ⟨x, hx, (h.last x hx r ?_).trans (standard_placed r hr)⟩
  rw [hloc, standard_placeOf r hr]
  exact standard_last r hr

/-- A store that has the standard sources as they are follows the standard configuration. -/
theorem follows_standard {s : Store} (hd : s.Distinct) (h : HasStandard s) :
    s.Follows Config.standardSources where
  last := by
    intro x hx r hlast
    obtain ⟨hr, hplace⟩ := Store.of_lastAt hlast
    obtain ⟨y, hy, hreg⟩ := h r hr
    have hloc : y.location = x.location := by
      rw [← hplace, standard_placeOf r hr, ← hreg]
      rfl
    rw [standard_placed r hr, ← hreg, hd.eq_of_location hy hx hloc]
  there := by
    intro r hr
    obtain ⟨x, hx, hreg⟩ := h r hr
    refine ⟨x, hx, ?_⟩
    rw [standard_placeOf r hr, ← hreg]
    rfl

/-- What is left where only the standard configuration is registered again: its sources are as
ever, and all others as they were left. So all is as it was left exactly where its sources were
left as they are. -/
structure LastsBeside (left s : Store) : Prop where
  others : besideStandard s = besideStandard left
  standard : HasStandard s
  untouched : s.registrations = left.registrations ↔ HasStandard left

theorem lastsBeside_standard {s : Store} (hd : s.Distinct) :
    LastsBeside s (s.reopened.upsertAll Config.standardSources) where
  others := upsertAll_besideStandard hd.reopened fun _ hr => hr
  standard := hasStandard_of_follows (hd.reopened.follows Config.standardSources)
  untouched := (hd.reopened.registrations_again_iff _).trans
    ⟨hasStandard_of_follows, follows_standard hd.reopened⟩

/-- What the next command finds of what a command left: all of it exactly where the configuration
carries the edit, and without a configuration what lasts beside the standard one. -/
structure Lasts (d : Disk) (path : String) (c : Config) (command : SourcesCommand)
    (left s : Store) : Prop where
  carried : d.holds path = true →
    (s.registrations = left.registrations ↔ c.Carries (Job.opened d c) command)
  beside : d.holds path = false → LastsBeside left s

/-- The configuration that is found afterwards. -/
theorem Kept.configOn (hkept : Kept d path c c' n) (hs : d.Sound)
    (hc : Job.configOn d path = .ok c) (h : Holds path c.database s n d')
    (hread : d.holds path = true → Job.ReadsBack c') (hfine : c'.complaint? = none) :
    Job.configOn d' path = .ok (if d.holds path then c' else c) := by
  obtain ⟨hn, hunedited⟩ | ⟨hthere, hpath, modified, rfl⟩ := hkept
  · have hsame : Job.configOn d' path = .ok c :=
      (Job.configOn_congr hs h.sound fun hpath => (h.config hpath).2.trans hn).2.trans hc
    obtain hnone | rfl := hunedited
    · rwa [hnone, if_neg Bool.false_ne_true]
    · rwa [ite_self]
  · rw [hthere, if_pos rfl]
    exact h.configOn_saved hpath (hread hthere) hfine

/-- **What a command does to the sources lasts where the configuration carries it**, and nowhere
else. The store that it leaves is opened by the next one, which registers the configuration in it
again. -/
theorem edits_last {lines : List String} {command : SourcesCommand} (hs : d.Sound)
    (hc : Job.configOn d path = .ok c) (hlasts : Job.isPassing c.database = false)
    (hapart : Apart d path c) (hd : (d.stored c.database).Distinct)
    (hread : d.holds path = true → Job.ReadsBack (c.edited (Job.opened d c) command))
    (h : upon (runSources path command) d = (.ok lines, d')) :
    ∃ s d'', d'.find c.database = .ok (.store ((Job.opened d c).after command)) ∧
      upon (do Job.openStore (← Job.loadConfig path)) d' = (.ok s, d'') ∧
      Lasts d path c command ((Job.opened d c).after command) s := by
  have hopened : (Job.opened d c).Distinct := hd.reopened.upsertAll c.sources
  have hleft := hopened.after command
  obtain ⟨⟨n, hholds, hkept⟩, hadd⟩ := leaves hs hlasts hapart hc hopened.numbered.keyed h
  have hfind := hholds.sound.find_of_at? (Job.named_of_lasting hlasts) hholds.store
  have hconfig := hkept.configOn hs hc hholds hread
    (Config.edited_fine (fine_of_configOn hc) _ hadd)
  cases hthere : d.holds path with
  | true =>
    rw [hthere, if_pos rfl] at hconfig
    have hname := Config.edited_database c (Job.opened d c) command
    obtain ⟨d'', hreopen⟩ := (hname ▸ hholds).reopens (hname ▸ hlasts) hconfig
    refine ⟨_, d'', hfind, hreopen, fun _ => ?_, fun hnone => ?_⟩
    · have hagain := hleft.reopened.registrations_again_iff
        (c.edited (Job.opened d c) command).sources
      have hedited := hopened.edited_follows (hd.reopened.follows c.sources) command
      exact hagain.trans ⟨fun h => hedited.mp (h.of_sources rfl), fun h => (hedited.mpr h).reopened⟩
    · rw [hthere] at hnone
      cases hnone
  | false =>
    rw [hthere, if_neg Bool.false_ne_true] at hconfig
    obtain ⟨d'', hreopen⟩ := hholds.reopens hlasts hconfig
    refine ⟨_, d'', hfind, hreopen, fun hsome => ?_, fun _ => ?_⟩
    · rw [hthere] at hsome
      cases hsome
    · rw [Job.configOn_of_not_holds hthere] at hc
      obtain rfl := Except.ok.inj hc
      exact lastsBeside_standard hleft

/-! ### A configuration that lists one source, and none at all -/

/-- A disk with nothing but a configuration. -/
def configured (text : String) : Disk :=
  ({} : Disk).put ["c.yaml".toList] (.file (Text.encode text) none)

theorem configured_sound (text : String) : (configured text).Sound :=
  Disk.sound_empty.put nofun fun _ hq hne =>
    Disk.sound_empty.folder_of_concat (Disk.at?_root {}) hq hne

/-- A configuration that lists one source. -/
def listing : Config :=
  { Config.standard with database := "/h.db", sources := [{ label := "a", location := "/a" }] }

def listingText : String := "\x7bdatabase: /h.db, sources: [\x7blabel: a, location: /a\x7d]\x7d"

/-- It with the source disabled. -/
def listingDisabled : Config :=
  { listing with sources := [{ label := "a", location := "/a", enabled := false }] }

theorem listingDisabled_readsBack : Job.ReadsBack listingDisabled := by
  -- the text is taken apart first, since a long one is slow to evaluate
  simp only [Job.ReadsBack, Config.text, listingDisabled, listing, Config.standard,
    Config.toValue, Config.ofFields, Config.httpValue, Config.pipelineValue,
    Config.registrationValue, List.map_cons, List.map_nil,
    Yaml.print, Yaml.entries, Yaml.joined, Yaml.behind, Yaml.dashes,
    String.toList_append, String.toList_ofList, List.isEmpty_cons, List.isEmpty_nil,
    Bool.false_eq_true, if_false, if_true]
  decide +kernel

/-- A source that the file lists stays disabled. -/
theorem edits_last_listed :
    ∃ d' s d'', upon (runSources "/c.yaml" (.disable 2)) (configured listingText) =
        (.ok (enablingText 2 "a" false), d') ∧
      upon (do Job.openStore (← Job.loadConfig "/c.yaml")) d' = (.ok s, d'') ∧
      (2, { label := "a", location := "/a", enabled := false }) ∈ s.registrations := by
  have hc : Job.configOn (configured listingText) "/c.yaml" = .ok listing := by decide +kernel
  have hdone : (upon (runSources "/c.yaml" (.disable 2)) (configured listingText)).1 =
      .ok (enablingText 2 "a" false) := by decide +kernel
  have hapart : Apart (configured listingText) "/c.yaml" listing :=
    ⟨by decide +kernel, by decide +kernel⟩
  have hd : ((configured listingText).stored listing.database).Distinct := by
    refine ⟨⟨?_, ?_⟩, ?_⟩ <;> decide +kernel
  have hedited : listing.edited (Job.opened (configured listingText) listing) (.disable 2) =
      listingDisabled := by decide +kernel
  obtain ⟨s, d'', -, hreopen, hlasts⟩ := edits_last (configured_sound listingText) hc
    (by decide +kernel) hapart hd (fun _ => hedited ▸ listingDisabled_readsBack)
    (Prod.ext hdone rfl)
  have hcarries : listing.Carries (Job.opened (configured listingText) listing) (.disable 2) :=
    fun _ _ _ => List.length_filter_le _ listing.sources
  refine ⟨_, s, d'', Prod.ext hdone rfl, hreopen, ?_⟩
  rw [(hlasts.carried (by decide +kernel)).mpr hcarries]
  decide +kernel

/-- The disk after a command. -/
def leaving (command : SourcesCommand) (d : Disk) : Disk :=
  (upon (runSources "/c.yaml" command) d).2

/-- Adds the source that is listed already, as one that allows. -/
def allowing : SourcesCommand := .add "/a" none true false false

/-- What does not last: a source that the file lists to block is one that blocks again; without a
configuration the next command enables a standard source again that was disabled; and of a store
that is not kept nothing is left. -/
theorem disabled_again_enabled :
    let listed := configured listingText
    let passing := configured "database: ':memory:'"
    let reopening := do Job.openStore (← Job.loadConfig "/c.yaml")
    ((upon (runSources "/c.yaml" allowing) listed).1.isOk = true ∧
      (((leaving allowing listed).stored "/h.db").source 2).map (·.allowList) = .ok true ∧
      ((upon reopening (leaving allowing listed)).1.map fun s =>
        (s.source 2).map (·.allowList)) = .ok (.ok false)) ∧
    (upon (runSources "/c.yaml" (.disable 2)) {}).1 =
        .ok (enablingText 2 "StevenBlack unified hosts" false) ∧
      (upon reopening (leaving (.disable 2) {})).1.map Store.registrations ≠
        .ok ((leaving (.disable 2) {}).stored Config.standard.database).registrations ∧
      (upon (runSources "/c.yaml" (.disable Source.userId)) passing).1 =
        .ok (enablingText Source.userId Store.userSource.label false) ∧
      ((upon reopening (leaving (.disable Source.userId) passing)).1.map fun s =>
        (s.source Source.userId).map (·.enabled)) = .ok (.ok true) := by
  refine ⟨⟨?_, ?_, ?_⟩, ?_, ?_, ?_, ?_⟩ <;> decide +kernel

end Sinkhole.Command
