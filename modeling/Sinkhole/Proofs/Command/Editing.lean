import Sinkhole.Command.Sources
import Sinkhole.Proofs.Store.Rebuild
import Sinkhole.Proofs.Store.Registered

/-! What a command about the sources leaves in the store and in the configuration.

Both are edited alike, the configuration at the first registration it has at a
location. The store goes on to follow it exactly where it has no other one there. -/
namespace Sinkhole

open Registration (lastAt)
open Store (placeOf)

/-! ### What is left -/

/-- The registration that a source is added with. -/
def Registration.given (location : String) (label : Option String)
    (allow redirects disabled : Bool) : Registration :=
  { label := label.getD location, location, enabled := !disabled, allowList := allow, redirects }

/-- A store after a command about its sources. -/
def Store.after (s : Store) : SourcesCommand → Store
  | .list => s
  | .add location label allow redirects disabled =>
    (s.upsert (.given location label allow redirects disabled)).2
  | .remove id =>
    ({ s with
      sources := s.sources.filter (·.id != id)
      items := s.items.filter (·.source != id) } : Store).synced
  | .enable id => s.modifySource id ({ · with enabled := true })
  | .disable id => s.modifySource id ({ · with enabled := false })

namespace Config

/-- A configuration with the first registration at a location edited, if there is one. -/
def editedAt (c : Config) (location : String)
    (edit : Registration → List Registration → List Registration) : Config :=
  { c with sources := (Command.editAt location edit c.sources).getD c.sources }

/-- A configuration that a source was added to. -/
def listed (c : Config) (r : Registration) : Config :=
  if c.sources.any (·.location == r.location) then c else { c with sources := c.sources ++ [r] }

/-- A configuration that a source was enabled or disabled in. -/
def switched (c : Config) (s : Store) (id : Int) (enabled : Bool) : Config :=
  match s.source id with
  | .ok source =>
    if source.enabled = enabled then c
    else c.editedAt source.location fun r rest => { r with enabled } :: rest
  | .error _ => c

/-- A configuration after a command about the sources of a store. -/
def edited (c : Config) (s : Store) : SourcesCommand → Config
  | .list => c
  | .add location label allow redirects disabled =>
    c.listed (.given location label allow redirects disabled)
  | .remove id =>
    match s.source id with
    | .ok source => c.editedAt source.location fun _ rest => rest
    | .error _ => c
  | .enable id => c.switched s id true
  | .disable id => c.switched s id false

/-- A configuration with no more than one registration at a place. -/
def ListsOnce (c : Config) (location : String) : Prop :=
  (c.sources.filter (placeOf · == location)).length ≤ 1

/-- Whether an edit of the configuration is its last word on the source: it speaks of the source
once. What is listed already is not listed again, so a source that is added so has to be listed as
it is added. -/
def Carries (c : Config) (s : Store) : SourcesCommand → Prop
  | .list => True
  | .add location label allow redirects disabled =>
    c.sources.any (·.location == location) = true →
      ∃ r, lastAt c.sources (Text.trimmed location) = some r ∧
        r.placed = (Registration.given location label allow redirects disabled).placed
  | .remove id => ∀ source, s.source id = .ok source → c.ListsOnce source.location
  | .enable id => ∀ source, s.source id = .ok source → source.enabled = false →
      c.ListsOnce source.location
  | .disable id => ∀ source, s.source id = .ok source → source.enabled = true →
      c.ListsOnce source.location

end Config

/-! ### Edits of the configuration -/

namespace Command

variable {rs : List Registration} {location : String}

theorem editAt_cases (location : String)
    (edit : Registration → List Registration → List Registration) (rs : List Registration) :
    editAt location edit rs = none ∧ (∀ r ∈ rs, placeOf r ≠ location) ∨
      ∃ before r after, rs = before ++ r :: after ∧ placeOf r = location ∧
        (∀ x ∈ before, placeOf x ≠ location) ∧
        editAt location edit rs = some (before ++ edit r after) := by
  induction rs with
  | nil => exact .inl ⟨rfl, by simp⟩
  | cons r rs ih =>
    by_cases hr : placeOf r = location
    · exact .inr ⟨[], r, rs, rfl, hr, by simp, if_pos hr⟩
    · have hstep : editAt location edit (r :: rs) = (editAt location edit rs).map (r :: ·) :=
        if_neg hr
      rw [hstep]
      obtain ⟨hnone, hother⟩ | ⟨before, x, after, rfl, hx, hbefore, hsome⟩ := ih
      · rw [hnone]
        exact .inl ⟨rfl, List.forall_mem_cons.mpr ⟨hr, hother⟩⟩
      · rw [hsome]
        exact .inr ⟨r :: before, x, after, rfl, hx, List.forall_mem_cons.mpr ⟨hr, hbefore⟩, rfl⟩

/-- A registration that is the only one at its location. -/
theorem others_of_once {before after : List Registration} {r : Registration}
    (hr : placeOf r = location)
    (honce : ((before ++ r :: after).filter (placeOf · == location)).length ≤ 1) :
    ∀ x ∈ before ++ after, placeOf x ≠ location := by
  intro x hx hloc
  rw [List.filter_append, List.filter_cons_of_pos (by simpa using hr), List.length_append,
    List.length_cons] at honce
  have hmem : x ∈ (before ++ after).filter (placeOf · == location) :=
    List.mem_filter.mpr ⟨hx, by simpa using hloc⟩
  have hpos := List.length_pos_of_mem hmem
  rw [List.filter_append, List.length_append] at hpos
  omega

/-- Of registrations at one location only the first is edited, and another one is the last. -/
theorem editAt_repeated (edit : Registration → List Registration → List Registration)
    (honce : ¬(rs.filter (placeOf · == location)).length ≤ 1) :
    ∃ before r after last, rs = before ++ r :: after ∧
      editAt location edit rs = some (before ++ edit r after) ∧
      lastAt after location = some last := by
  obtain ⟨-, hother⟩ | ⟨before, r, after, rfl, -, hbefore, hsome⟩ := editAt_cases location edit rs
  · have hnone : rs.filter (placeOf · == location) = [] :=
      List.filter_eq_nil_iff.mpr fun r hr => by simpa using hother r hr
    rw [hnone] at honce
    exact absurd (Nat.zero_le 1) honce
  · have hnone : before.filter (placeOf · == location) = [] :=
      List.filter_eq_nil_iff.mpr fun x hx => by simpa using hbefore x hx
    rw [List.filter_append, hnone, List.nil_append, List.filter_cons] at honce
    have hpos : 0 < (after.filter (placeOf · == location)).length := by
      split at honce
      · rw [List.length_cons] at honce
        omega
      · omega
    obtain ⟨other, hother⟩ := List.exists_mem_of_length_pos hpos
    obtain ⟨hmem, hplace⟩ := List.mem_filter.mp hother
    obtain ⟨last, hlast⟩ := Store.exists_lastAt hmem
    rw [beq_iff_eq.mp hplace] at hlast
    exact ⟨before, r, after, last, rfl, hsome, hlast⟩

theorem editAt_remove (honce : (rs.filter (placeOf · == location)).length ≤ 1) :
    (editAt location (fun _ rest => rest) rs).getD rs = rs.filter (placeOf · != location) := by
  obtain ⟨hnone, hother⟩ | ⟨before, r, after, rfl, hr, -, hsome⟩ :=
    editAt_cases location (fun _ rest => rest) rs
  · rw [hnone, Option.getD_none, List.filter_eq_self.mpr]
    exact fun r hr => by simpa using hother r hr
  · have hother := others_of_once hr honce
    rw [hsome, Option.getD_some, List.filter_append, List.filter_cons_of_neg (by simpa using hr),
      ← List.filter_append, List.filter_eq_self.mpr]
    exact fun x hx => by simpa using hother x hx

theorem editAt_switch (enabled : Bool)
    (honce : (rs.filter (placeOf · == location)).length ≤ 1) :
    (editAt location (fun r rest => { r with enabled } :: rest) rs).getD rs =
      rs.map fun r => if placeOf r = location then { r with enabled } else r := by
  have hsame : ∀ xs : List Registration, (∀ x ∈ xs, placeOf x ≠ location) →
      xs.map (fun r => if placeOf r = location then { r with enabled } else r) = xs := by
    intro xs hxs
    exact (List.map_congr_left fun x hx => if_neg (hxs x hx)).trans (List.map_id xs)
  obtain ⟨hnone, hother⟩ | ⟨before, r, after, rfl, hr, -, hsome⟩ :=
    editAt_cases location (fun r rest => { r with enabled } :: rest) rs
  · rw [hnone, Option.getD_none, hsame rs hother]
  · have hother := List.forall_mem_append.mp (others_of_once hr honce)
    rw [hsome, Option.getD_some, List.map_append, List.map_cons, if_pos hr, hsame _ hother.1,
      hsame _ hother.2]

end Command

/-! ### The store goes on to follow the configuration -/

namespace Store.Distinct

variable {s : Store} {c : Config} {id : Int} {source : Source}

/-- All that is left when a source is removed is at other locations. -/
theorem mem_removed (h : s.Distinct) (hsource : s.source id = .ok source) (x : Source) :
    x ∈ s.sources.filter (·.id != id) ↔ x ∈ s.sources ∧ x.location ≠ source.location := by
  obtain ⟨hmem, rfl⟩ := mem_of_source hsource
  rw [List.mem_filter]
  refine and_congr_right fun hx => ?_
  rw [bne_iff_ne]
  refine not_congr ⟨fun hid => ?_, fun hloc => ?_⟩
  · rw [h.numbered.keyed.eq_of_id hx hmem hid]
  · rw [h.eq_of_location hx hmem hloc]

theorem removed_follows (h : s.Distinct) (hf : s.Follows c.sources)
    (hcarries : c.Carries s (.remove id)) :
    (s.after (.remove id)).Follows (c.edited s (.remove id)).sources := by
  cases hsource : s.source id with
  | ok source =>
    have honce := hcarries source hsource
    rw [Config.edited, hsource]
    show Follows _ ((Command.editAt source.location _ c.sources).getD c.sources)
    rw [Command.editAt_remove honce]
    exact hf.without fun x => h.mem_removed hsource x
  | error e =>
    have hunknown := not_mem_of_source hsource
    have hsame : s.sources.filter (·.id != id) = s.sources := by
      refine List.filter_eq_self.mpr fun x hx => bne_iff_ne.mpr ?_
      rintro rfl
      exact hunknown (List.mem_map_of_mem hx)
    rw [Config.edited, hsource]
    exact hf.of_sources hsame

theorem switched_follows (h : s.Distinct) (hf : s.Follows c.sources) (enabled : Bool)
    (honce : ∀ source, s.source id = .ok source → source.enabled = !enabled →
      c.ListsOnce source.location) :
    (s.modifySource id ({ · with enabled })).Follows (c.switched s id enabled).sources := by
  cases hsource : s.source id with
  | ok source =>
    obtain ⟨hmem, rfl⟩ := mem_of_source hsource
    rw [Config.switched, hsource]
    dsimp only
    by_cases hsame : source.enabled = enabled
    · rw [if_pos hsame, h.numbered.keyed.modifySource_same hmem (by rw [← hsame])]
      exact hf
    · rw [if_neg hsame]
      show Follows _ ((Command.editAt source.location _ c.sources).getD c.sources)
      rw [Command.editAt_switch enabled (honce source hsource (Bool.eq_not.mpr hsame))]
      refine hf.changed rfl (fun r => ?_) (fun x _ => ?_) fun x hx r hloc hreg => ?_
      · split <;> rfl
      · split <;> rfl
      · by_cases hid : x.id = source.id
        · rw [h.numbered.keyed.eq_of_id hx hmem hid] at hloc hreg ⊢
          rw [if_pos (beq_self_eq_true _), if_pos hloc]
          exact congrArg (fun r : Registration => { r with enabled }) hreg
        · have hother : placeOf r ≠ source.location := fun he =>
            hid (congrArg Source.id (h.eq_of_location hx hmem (hloc.symm.trans he)))
          rw [if_neg (by simpa using hid), if_neg hother]
          exact hreg
  | error e =>
    have hunknown := not_mem_of_source hsource
    have hsame : (s.modifySource id ({ · with enabled })).sources = s.sources := by
      refine (List.map_congr_left fun x hx => if_neg fun hid => ?_).trans (List.map_id _)
      rw [beq_iff_eq] at hid
      exact hunknown (hid ▸ List.mem_map_of_mem hx)
    rw [Config.switched, hsource]
    exact hf.of_sources hsame

theorem added_follows (h : s.Distinct) (hf : s.Follows c.sources) {location : String}
    {label : Option String} {allow redirects disabled : Bool}
    (hcarries : c.Carries s (.add location label allow redirects disabled)) :
    (s.after (.add location label allow redirects disabled)).Follows
      (c.edited s (.add location label allow redirects disabled)).sources := by
  rw [Config.edited, Config.listed]
  split
  · rename_i hlisted
    obtain ⟨r, hlast, hsame⟩ := hcarries hlisted
    exact hf.upsert_listed h hlast hsame
  · exact hf.upsert h _

/-- A source that is listed twice is listed still after it was removed. -/
theorem removed_once (h : s.Distinct)
    (hf : (s.after (.remove id)).Follows (c.edited s (.remove id)).sources) :
    c.Carries s (.remove id) := by
  intro source hsource
  by_contra honce
  obtain ⟨before, r, after, last, -, hedit, hlast⟩ :=
    Command.editAt_repeated (fun _ rest => rest) honce
  obtain ⟨hmem, hplace⟩ := of_lastAt hlast
  rw [Config.edited, hsource] at hf
  have hthere := hf.there last (by
    show last ∈ (Command.editAt source.location _ c.sources).getD c.sources
    rw [hedit]
    exact List.mem_append_right before hmem)
  obtain ⟨x, hx, hloc⟩ := hthere
  exact ((h.mem_removed hsource x).mp hx).2 (hloc.trans hplace)

/-- A source that is listed twice is listed last as it was before it was switched. -/
theorem switched_once (hf : s.Follows c.sources) (enabled : Bool)
    (hafter : (s.modifySource id ({ · with enabled })).Follows
      (c.switched s id enabled).sources) :
    ∀ source, s.source id = .ok source → source.enabled = !enabled →
      c.ListsOnce source.location := by
  intro source hsource hother
  by_contra honce
  obtain ⟨before, r, after, last, hlisted, hedit, hlast⟩ :=
    Command.editAt_repeated (fun r rest => { r with enabled } :: rest) honce
  obtain ⟨hmem, rfl⟩ := mem_of_source hsource
  have hbefore : source.registration = last.placed :=
    hf.last source hmem last (by rw [hlisted]; exact lastAt_append_cons hlast)
  rw [Config.switched, hsource] at hafter
  dsimp only at hafter
  rw [if_neg (by rw [hother]; exact Bool.not_ne_self enabled)] at hafter
  have hswitched : ({ source with enabled } : Source) ∈
      (s.modifySource source.id ({ · with enabled })).sources :=
    List.mem_map.mpr ⟨source, hmem, if_pos (beq_self_eq_true _)⟩
  have hlater : ({ source with enabled } : Source).registration = last.placed :=
    hafter.last _ hswitched last (by
      show lastAt ((Command.editAt source.location _ c.sources).getD c.sources) _ = _
      rw [hedit]
      exact lastAt_append_cons hlast)
  -- the last registration says what the source was and what it has become
  have hsame : enabled = source.enabled :=
    congrArg Registration.enabled (hlater.trans hbefore.symm)
  rw [hother] at hsame
  exact Bool.not_ne_self enabled hsame.symm

/-- What is listed already stays listed as it is, so it has to be listed as it is added. -/
theorem added_as_listed (h : s.Distinct) {location : String} {label : Option String}
    {allow redirects disabled : Bool}
    (hf : (s.after (.add location label allow redirects disabled)).Follows
      (c.edited s (.add location label allow redirects disabled)).sources) :
    c.Carries s (.add location label allow redirects disabled) := by
  intro hlisted
  obtain ⟨listed, hmem, hsame⟩ := List.any_eq_true.mp hlisted
  obtain ⟨r, hlast⟩ := exists_lastAt hmem
  rw [placeOf, beq_iff_eq.mp hsame] at hlast
  refine ⟨r, hlast, ?_⟩
  have hunedited : c.listed (.given location label allow redirects disabled) = c := if_pos hlisted
  rw [Config.edited, hunedited] at hf
  obtain ⟨x, hx, hloc⟩ := upsert_there (r := .given location label allow redirects disabled) h
    (.inl rfl)
  obtain ⟨-, hreg⟩ | ⟨helsewhere, -⟩ := mem_upsert h hx
  · rw [← hf.last x hx r (by rw [hloc]; exact hlast), hreg]
  · exact absurd hloc helsewhere

/-- **The store goes on to follow the configuration exactly where that carries the edit.** -/
theorem edited_follows (h : s.Distinct) (hf : s.Follows c.sources) (command : SourcesCommand) :
    (s.after command).Follows (c.edited s command).sources ↔ c.Carries s command := by
  cases command with
  | list => exact iff_of_true hf trivial
  | add location label allow redirects disabled =>
    exact ⟨h.added_as_listed, h.added_follows hf⟩
  | remove id => exact ⟨h.removed_once, h.removed_follows hf⟩
  | enable id => exact ⟨switched_once hf true, h.switched_follows hf true⟩
  | disable id => exact ⟨switched_once hf false, h.switched_follows hf false⟩

theorem switched (h : s.Distinct) (id : Int) (enabled : Bool) :
    (s.modifySource id ({ · with enabled })).Distinct where
  numbered := h.numbered.of_ids (s.modifySource_map fun _ => rfl) (Int.le_refl _)
  places := by
    have hsame : (s.modifySource id ({ · with enabled })).sources.map (·.location) =
        s.sources.map (·.location) := s.modifySource_map fun _ => rfl
    rw [hsame]
    exact h.places

theorem after (h : s.Distinct) (command : SourcesCommand) : (s.after command).Distinct := by
  cases command with
  | list => exact h
  | add location label allow redirects disabled => exact h.upsert _
  | remove id =>
    exact ⟨⟨h.numbered.keyed.sublist (List.filter_sublist.map _),
      fun x hx => h.numbered.given x (List.mem_of_mem_filter hx)⟩,
      h.places.sublist (List.filter_sublist.map _)⟩
  | enable id => exact h.switched id true
  | disable id => exact h.switched id false

end Store.Distinct

/-! ### Nothing becomes wrong with the configuration -/

namespace Config

variable {c : Config} {s : Store}

/-- A configuration is fine if it is so without its sources, and they are. -/
theorem complaint?_eq_none : c.complaint? = none ↔
    ({ c with sources := [] } : Config).complaint? = none ∧
      ∀ r ∈ c.sources, r.complaint? = none := by
  unfold complaint?
  split_ifs <;> simp

theorem editedAt_fine (hc : c.complaint? = none) (location : String)
    {edit : Registration → List Registration → List Registration}
    (hedit : ∀ r rest, r.complaint? = none → (∀ x ∈ rest, x.complaint? = none) →
      ∀ x ∈ edit r rest, x.complaint? = none) : (c.editedAt location edit).complaint? = none := by
  obtain ⟨hrest, hsources⟩ := complaint?_eq_none.mp hc
  refine complaint?_eq_none.mpr ⟨hrest, ?_⟩
  show ∀ r ∈ (Command.editAt location edit c.sources).getD c.sources, r.complaint? = none
  obtain ⟨hnone, -⟩ | ⟨before, r, after, heq, -, -, hsome⟩ :=
    Command.editAt_cases location edit c.sources
  · rwa [hnone]
  · rw [heq, List.forall_mem_append, List.forall_mem_cons] at hsources
    rw [hsome, Option.getD_some, List.forall_mem_append]
    exact ⟨hsources.1, hedit r after hsources.2.1 hsources.2.2⟩

theorem switched_fine (hc : c.complaint? = none) (s : Store) (id : Int) (enabled : Bool) :
    (c.switched s id enabled).complaint? = none := by
  unfold switched
  split
  · split
    · exact hc
    · exact editedAt_fine hc _ fun r rest hr hrest => List.forall_mem_cons.mpr ⟨hr, hrest⟩
  · exact hc

theorem listed_fine (hc : c.complaint? = none) {r : Registration} (hr : r.complaint? = none) :
    (c.listed r).complaint? = none := by
  unfold listed
  split
  · exact hc
  · obtain ⟨hrest, hsources⟩ := complaint?_eq_none.mp hc
    refine complaint?_eq_none.mpr ⟨hrest, List.forall_mem_append.mpr ⟨hsources, fun x hx => ?_⟩⟩
    exact List.mem_singleton.mp hx ▸ hr

/-- **A configuration stays fine, if what is added is so.** -/
theorem edited_fine (hc : c.complaint? = none) (s : Store) {command : SourcesCommand}
    (hadd : ∀ location label allow redirects disabled,
      command = .add location label allow redirects disabled →
      (Registration.given location label allow redirects disabled).complaint? = none) :
    (c.edited s command).complaint? = none := by
  cases command with
  | list => exact hc
  | add location label allow redirects disabled =>
    exact listed_fine hc (hadd location label allow redirects disabled rfl)
  | remove id =>
    rw [edited]
    split
    · exact editedAt_fine hc _ fun r rest hr hrest => hrest
    · exact hc
  | enable id => exact switched_fine hc s id true
  | disable id => exact switched_fine hc s id false

theorem switched_database (c : Config) (s : Store) (id : Int) (enabled : Bool) :
    (c.switched s id enabled).database = c.database := by
  unfold switched
  split
  · split <;> rfl
  · rfl

theorem edited_database (c : Config) (s : Store) (command : SourcesCommand) :
    (c.edited s command).database = c.database := by
  cases command with
  | list => rfl
  | add location label allow redirects disabled =>
    rw [edited, listed]
    split <;> rfl
  | remove id =>
    rw [edited]
    split <;> rfl
  | enable id => exact c.switched_database s id true
  | disable id => exact c.switched_database s id false

end Config

end Sinkhole
