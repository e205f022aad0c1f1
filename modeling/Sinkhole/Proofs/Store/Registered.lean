import Sinkhole.Proofs.Store.Sources

/-! What a list of registrations makes of the sources.

Locations are a key of the sources, besides their ids, and a list that is registered
has the last word on the sources at its locations: the last registration of each is
what the source there becomes. So to register a list again changes nothing of what
the sources are registered as, as long as they are still registered as the list says. -/
namespace Sinkhole

/-- A registration as the store keeps it. -/
def Registration.placed (r : Registration) : Registration := { r with location := Store.placeOf r }

/-- The last registration of a list at a place. -/
def Registration.lastAt (rs : List Registration) (place : String) : Option Registration :=
  rs.reverse.find? (Store.placeOf · == place)

namespace Store

open Registration (lastAt)

/-- What the sources are registered as, by their ids. -/
def registrations (s : Store) : List (Int × Registration) :=
  s.sources.map fun x => (x.id, x.registration)

/-- Ids and locations are keys of the sources. -/
structure Distinct (s : Store) : Prop where
  numbered : s.Numbered
  places : (s.sources.map (·.location)).Nodup

/-- The sources at the locations of a list are there, and are registered as it says. -/
structure Follows (s : Store) (rs : List Registration) : Prop where
  last : ∀ x ∈ s.sources, ∀ r, lastAt rs x.location = some r → x.registration = r.placed
  there : ∀ r ∈ rs, ∃ x ∈ s.sources, x.location = placeOf r

section

variable {rs : List Registration} {r : Registration} {place : String}

/-! ### The last registration -/

theorem lastAt_append_singleton :
    lastAt (rs ++ [r]) place = if placeOf r = place then some r else lastAt rs place := by
  by_cases h : placeOf r = place <;> simp [lastAt, h]

theorem lastAt_cons :
    lastAt (r :: rs) place = (lastAt rs place).or (if placeOf r = place then some r else none) := by
  by_cases h : placeOf r = place <;> simp [lastAt, h]

theorem lastAt_filter (location : String) :
    lastAt (rs.filter (placeOf · != location)) place =
      if place = location then none else lastAt rs place := by
  induction rs with
  | nil => simp [lastAt]
  | cons r rs ih =>
    by_cases hr : placeOf r = location
    · rw [List.filter_cons_of_neg (by simpa using hr), ih, lastAt_cons]
      by_cases hp : place = location
      · rw [if_pos hp, if_pos hp]
      · rw [if_neg hp, if_neg hp, if_neg (fun h => hp (h.symm.trans hr)), Option.or_none]
    · rw [List.filter_cons_of_pos (by simpa using hr), lastAt_cons, ih, lastAt_cons]
      by_cases hp : place = location
      · rw [if_pos hp, if_pos hp, if_neg (fun h => hr (h.trans hp)), Option.or_none]
      · rw [if_neg hp, if_neg hp]

theorem lastAt_map {f : Registration → Registration} (hf : ∀ r, placeOf (f r) = placeOf r) :
    lastAt (rs.map f) place = (lastAt rs place).map f := by
  induction rs with
  | nil => rfl
  | cons r rs ih =>
    rw [List.map_cons, lastAt_cons, ih, lastAt_cons, hf]
    cases lastAt rs place with
    | some r' => rfl
    | none => split <;> rfl

theorem of_lastAt (h : lastAt rs place = some r) : r ∈ rs ∧ placeOf r = place := by
  refine ⟨List.mem_reverse.mp (List.mem_of_find?_eq_some h), ?_⟩
  simpa using List.find?_some h

theorem exists_lastAt (hr : r ∈ rs) : ∃ r', lastAt rs (placeOf r) = some r' := by
  refine Option.isSome_iff_exists.mp (List.find?_isSome.mpr ⟨r, List.mem_reverse.mpr hr, ?_⟩)
  exact beq_self_eq_true _

/-- What stands behind a registration speaks in its place. -/
theorem lastAt_append_cons {before after : List Registration} {r' : Registration}
    (hlast : lastAt after place = some r') : lastAt (before ++ r :: after) place = some r' := by
  unfold lastAt at hlast ⊢
  rw [List.reverse_append, List.reverse_cons, List.find?_append, List.find?_append, hlast]
  rfl

end

/-! ### One registration -/

/-- A source that is changed to what it is leaves the store as it is. -/
theorem Keyed.modifySource_same {s : Store} (hk : s.Keyed) {source : Source}
    (hmem : source ∈ s.sources) {f : Source → Source} (hsame : f source = source) :
    s.modifySource source.id f = s := by
  have hsources : (s.modifySource source.id f).sources = s.sources := by
    rw [hk.modifySource_sources hmem, hsame]
    refine (List.map_congr_left fun x hx => ?_).trans (List.map_id _)
    split
    · rename_i hid
      exact hk.eq_of_id hmem hx (beq_iff_eq.mp hid).symm
    · rfl
  exact congrArg (fun sources => ({ s with sources } : Store)) hsources

namespace Distinct

variable {s : Store} (h : s.Distinct)

include h

theorem eq_of_location {a b : Source} (ha : a ∈ s.sources) (hb : b ∈ s.sources)
    (hloc : a.location = b.location) : a = b :=
  List.inj_on_of_nodup_map h.places ha hb hloc

/-- A source that is registered again is the one at its location. -/
theorem upsert_sources {r : Registration} (hthere : ∃ x ∈ s.sources, x.location = placeOf r) :
    (s.upsert r).2.sources =
      s.sources.map fun x => if x.location = placeOf r then refreshed x r else x := by
  unfold upsert
  split
  · rename_i old hfind
    have hold := List.mem_of_find?_eq_some hfind
    have hplace : old.location = placeOf r := by simpa using List.find?_some hfind
    refine List.map_congr_left fun x hx => ?_
    by_cases hloc : x.location = placeOf r
    · rw [h.eq_of_location hx hold (hloc.trans hplace.symm)]
      simp [hplace]
    · have hid : x.id ≠ old.id := fun hid =>
        hloc (h.numbered.keyed.eq_of_id hx hold hid ▸ hplace)
      simp [hloc, hid]
  · rename_i hnone
    obtain ⟨x, hx, hloc⟩ := hthere
    have hfalse := List.find?_eq_none.mp hnone x hx
    exact absurd hloc (by simpa using hfalse)

theorem upsert (r : Registration) : (s.upsert r).2.Distinct := by
  refine ⟨upsert_numbered h.numbered r, ?_⟩
  by_cases hthere : ∃ x ∈ s.sources, x.location = placeOf r
  · have hsame : (s.upsert r).2.sources.map (·.location) = s.sources.map (·.location) := by
      rw [h.upsert_sources hthere, List.map_map]
      refine List.map_congr_left fun x _ => ?_
      rw [Function.comp]
      split <;> rfl
    exact hsame ▸ h.places
  · have hnone : s.sources.find? (·.location == placeOf r) = none := by
      simpa using hthere
    simp only [Store.upsert, hnone, List.map_append]
    refine List.Nodup.append h.places (List.nodup_singleton _) fun place hold hnew => hthere ?_
    obtain ⟨x, hx, rfl⟩ := List.mem_map.mp hold
    exact ⟨x, hx, by simpa [newSource] using hnew⟩

theorem reopened : s.reopened.Distinct :=
  ⟨⟨h.numbered.keyed, h.numbered.given⟩, h.places⟩

theorem upsertAll (rs : List Registration) : (s.upsertAll rs).Distinct := by
  induction rs generalizing s with
  | nil => exact h
  | cons r rs ih => exact ih (h.upsert r)

end Distinct

section

variable {s : Store} {r : Registration} {x : Source}

theorem refreshed_registration (h : x.location = placeOf r) :
    (refreshed x r).registration = r.placed := by
  simp [refreshed, Source.registration, Registration.placed, h]

theorem upsert_sources_new (hnew : ¬∃ x ∈ s.sources, x.location = placeOf r) :
    (s.upsert r).2.sources = s.sources ++ [newSource (s.lastId + 1) r] := by
  have hnone : s.sources.find? (·.location == placeOf r) = none := by simpa using hnew
  simp only [upsert, hnone]

/-- A registration is about the source at its location alone. -/
theorem mem_upsert (hd : s.Distinct) (hx : x ∈ (s.upsert r).2.sources) :
    x.location = placeOf r ∧ x.registration = r.placed ∨
      x.location ≠ placeOf r ∧ x ∈ s.sources := by
  by_cases hthere : ∃ x ∈ s.sources, x.location = placeOf r
  · rw [hd.upsert_sources hthere] at hx
    obtain ⟨old, hold, rfl⟩ := List.mem_map.mp hx
    by_cases hloc : old.location = placeOf r
    · rw [if_pos hloc]
      exact .inl ⟨hloc, refreshed_registration hloc⟩
    · rw [if_neg hloc]
      exact .inr ⟨hloc, hold⟩
  · rw [upsert_sources_new hthere] at hx
    rcases List.mem_append.mp hx with hold | hnew
    · exact .inr ⟨fun hloc => hthere ⟨x, hold, hloc⟩, hold⟩
    · rw [List.mem_singleton.mp hnew]
      exact .inl ⟨rfl, rfl⟩

theorem upsert_there (hd : s.Distinct) {place : String}
    (h : place = placeOf r ∨ ∃ x ∈ s.sources, x.location = place) :
    ∃ x ∈ (s.upsert r).2.sources, x.location = place := by
  by_cases hthere : ∃ x ∈ s.sources, x.location = placeOf r
  · rw [hd.upsert_sources hthere]
    obtain ⟨x, hx, hloc⟩ : ∃ x ∈ s.sources, x.location = place := by
      rcases h with rfl | h
      · exact hthere
      · exact h
    refine ⟨_, List.mem_map_of_mem hx, ?_⟩
    split
    · exact hloc
    · exact hloc
  · rw [upsert_sources_new hthere]
    rcases h with rfl | ⟨x, hx, hloc⟩
    · exact ⟨_, List.mem_append_right _ (List.mem_singleton.mpr rfl), rfl⟩
    · exact ⟨x, List.mem_append_left _ hx, hloc⟩

/-- Sources at other locations stay as they are. -/
theorem upsert_filter (hd : s.Distinct) {p : Source → Bool}
    (hp : ∀ x, x.location = placeOf r → p x = false) :
    (s.upsert r).2.sources.filter p = s.sources.filter p := by
  by_cases hthere : ∃ x ∈ s.sources, x.location = placeOf r
  · rw [hd.upsert_sources hthere, List.filter_map]
    have hp' : p ∘ (fun x => if x.location = placeOf r then refreshed x r else x) = p := by
      funext x
      by_cases hloc : x.location = placeOf r
      · rw [Function.comp, if_pos hloc, hp x hloc, hp (refreshed x r) hloc]
      · rw [Function.comp, if_neg hloc]
    rw [hp']
    refine (List.map_congr_left fun x hx => if_neg fun hloc => ?_).trans (List.map_id _)
    have hpx := (List.mem_filter.mp hx).2
    rw [hp x hloc] at hpx
    cases hpx
  · rw [upsert_sources_new hthere, List.filter_append]
    simp [hp (newSource (s.lastId + 1) r) rfl]

end

/-! ### A list of registrations -/

/-- A source after one registration after the other, of which those at its location are about it. -/
def refreshedAll (x : Source) (rs : List Registration) : Source :=
  rs.foldl (fun x r => if x.location = placeOf r then refreshed x r else x) x

/-- What was stored for the source was read as the registration says. -/
def SameRole (x : Source) (r : Registration) : Prop :=
  x.allowList = r.allowList ∧ x.redirects = r.redirects

instance (x : Source) (r : Registration) : Decidable (SameRole x r) :=
  inferInstanceAs (Decidable (_ ∧ _))

/-- The source has no validators that a registration of the list would take away. -/
def Unshaken (x : Source) (rs : List Registration) : Prop :=
  (x.entityTag = none ∧ x.appliedModified = none) ∨
    ∀ r ∈ rs, x.location = placeOf r → SameRole x r

section

variable {x : Source} {r : Registration} {rs : List Registration}

theorem refreshed_sameRole (h : SameRole x r) :
    (refreshed x r).entityTag = x.entityTag ∧
      (refreshed x r).appliedModified = x.appliedModified := by
  simp [refreshed, h.1, h.2]

theorem refreshed_otherRole (h : ¬SameRole x r) :
    (refreshed x r).entityTag = none ∧ (refreshed x r).appliedModified = none := by
  have hkept : (x.allowList == r.allowList && x.redirects == r.redirects) = false := by
    rw [Bool.eq_false_iff, ne_eq, Bool.and_eq_true, beq_iff_eq, beq_iff_eq]
    exact h
  simp [refreshed, hkept]

theorem refreshedAll_cons : refreshedAll x (r :: rs) =
    refreshedAll (if x.location = placeOf r then refreshed x r else x) rs := rfl

/-- A source becomes what the last registration at its location says. -/
theorem refreshedAll_registration (x : Source) (rs : List Registration) :
    (refreshedAll x rs).id = x.id ∧
      (refreshedAll x rs).registration =
        ((lastAt rs x.location).map (·.placed)).getD x.registration := by
  induction rs generalizing x with
  | nil => exact ⟨rfl, rfl⟩
  | cons r rs ih =>
    rw [refreshedAll_cons, lastAt_cons]
    by_cases hloc : x.location = placeOf r
    · obtain ⟨hid, hreg⟩ := ih (refreshed x r)
      rw [if_pos hloc, if_pos hloc.symm]
      refine ⟨hid, hreg.trans ?_⟩
      rw [show (refreshed x r).location = x.location from rfl, refreshed_registration hloc]
      cases lastAt rs x.location <;> rfl
    · rw [if_neg hloc, if_neg (Ne.symm hloc), Option.or_none]
      exact ih x

/-- No registration changes what is known of a source's content but for the validators. -/
theorem refreshedAll_known (x : Source) (rs : List Registration) :
    (refreshedAll x rs).remoteModified = x.remoteModified ∧
      (refreshedAll x rs).sizeHint = x.sizeHint := by
  induction rs generalizing x with
  | nil => exact ⟨rfl, rfl⟩
  | cons r rs ih =>
    rw [refreshedAll_cons]
    split
    · exact ih (refreshed x r)
    · exact ih x

theorem Unshaken.refreshedAll (h : Unshaken x rs) :
    (refreshedAll x rs).entityTag = x.entityTag ∧
      (refreshedAll x rs).appliedModified = x.appliedModified := by
  induction rs generalizing x with
  | nil => exact ⟨rfl, rfl⟩
  | cons r rs ih =>
    rw [refreshedAll_cons]
    by_cases hloc : x.location = placeOf r
    · rw [if_pos hloc]
      have hsame : (refreshed x r).entityTag = x.entityTag ∧
          (refreshed x r).appliedModified = x.appliedModified := by
        by_cases hrole : SameRole x r
        · exact refreshed_sameRole hrole
        · -- the validators that go were not there
          obtain ⟨htag, htime⟩ := h.resolve_right fun hall => hrole (hall r List.mem_cons_self hloc)
          rw [htag, htime]
          exact refreshed_otherRole hrole
      have hrest : Unshaken (refreshed x r) rs := by
        refine h.imp (fun hnone => ⟨hsame.1.trans hnone.1, hsame.2.trans hnone.2⟩) ?_
        intro hall r' hr' hloc'
        obtain ⟨hallow, hredirects⟩ := hall r List.mem_cons_self hloc
        obtain ⟨hallow', hredirects'⟩ := hall r' (List.mem_cons_of_mem r hr') hloc'
        exact ⟨hallow.symm.trans hallow', hredirects.symm.trans hredirects'⟩
      obtain ⟨htag, htime⟩ := ih hrest
      exact ⟨htag.trans hsame.1, htime.trans hsame.2⟩
    · rw [if_neg hloc]
      exact ih (h.imp_right fun hall r' hr' => hall r' (List.mem_cons_of_mem r hr'))

/-- A source with the validators it may keep, and registered as the list says, stays as it is. -/
theorem Unshaken.refreshedAll_eq (h : Unshaken x rs)
    (hlast : ∀ r, lastAt rs x.location = some r → x.registration = r.placed) :
    Store.refreshedAll x rs = x := by
  obtain ⟨hid, hreg⟩ := refreshedAll_registration x rs
  obtain ⟨hremote, hsize⟩ := refreshedAll_known x rs
  obtain ⟨htag, htime⟩ := h.refreshedAll
  have hregistration : (Store.refreshedAll x rs).registration = x.registration := by
    rw [hreg]
    cases hfound : lastAt rs x.location with
    | none => rfl
    | some r => exact (hlast r hfound).symm
  generalize Store.refreshedAll x rs = y at *
  cases x
  cases y
  simp_all [Source.registration]

end

/-- Sources that are there are refreshed by all registrations at their location. -/
theorem Distinct.upsertAll_sources {s : Store} (hd : s.Distinct) {rs : List Registration}
    (hthere : ∀ r ∈ rs, ∃ x ∈ s.sources, x.location = placeOf r) :
    (s.upsertAll rs).sources = s.sources.map (refreshedAll · rs) := by
  induction rs generalizing s with
  | nil => exact (List.map_id _).symm
  | cons r rs ih =>
    have hrest := ih (hd.upsert r) fun r' hr' =>
      upsert_there hd (.inr (hthere r' (List.mem_cons_of_mem r hr')))
    rw [hd.upsert_sources (hthere r List.mem_cons_self), List.map_map] at hrest
    exact hrest

namespace Follows

variable {s : Store} {rs : List Registration}

theorem nil (s : Store) : s.Follows [] where
  last := fun x _ r hlast => absurd hlast (by simp [lastAt])
  there := fun r hr => absurd hr List.not_mem_nil

theorem of_sources {s' : Store} (h : s.Follows rs) (hsame : s'.sources = s.sources) :
    s'.Follows rs :=
  ⟨fun x hx => h.last x (hsame ▸ hx), fun r hr => by rw [hsame]; exact h.there r hr⟩

theorem reopened (h : s.Follows rs) : s.reopened.Follows rs := h.of_sources rfl

/-- It is about what the sources are registered as. -/
theorem of_registrations {s' : Store} (h : s.Follows rs)
    (hsame : s.registrations = s'.registrations) : s'.Follows rs where
  last := by
    intro x hx r hlast
    have hmem : (x.id, x.registration) ∈ s.registrations :=
      hsame ▸ List.mem_map_of_mem (f := fun x : Source => (x.id, x.registration)) hx
    obtain ⟨y, hy, heq⟩ := List.mem_map.mp hmem
    have hreg : y.registration = x.registration := congrArg Prod.snd heq
    have hloc : y.location = x.location := congrArg Registration.location hreg
    exact hreg ▸ h.last y hy r (hloc ▸ hlast)
  there := by
    intro r hr
    obtain ⟨y, hy, hloc⟩ := h.there r hr
    have hmem : (y.id, y.registration) ∈ s'.registrations :=
      hsame ▸ List.mem_map_of_mem (f := fun x : Source => (x.id, x.registration)) hy
    obtain ⟨x, hx, heq⟩ := List.mem_map.mp hmem
    have hreg : x.registration = y.registration := congrArg Prod.snd heq
    exact ⟨x, hx, (congrArg Registration.location hreg).trans hloc⟩

/-- The last word on a location is the last one that was registered. -/
theorem upsert (hd : s.Distinct) (h : s.Follows rs) (r : Registration) :
    (s.upsert r).2.Follows (rs ++ [r]) where
  last := by
    intro x hx r' hlast
    rw [lastAt_append_singleton] at hlast
    obtain ⟨hloc, hreg⟩ | ⟨hloc, hold⟩ := mem_upsert hd hx
    · rw [if_pos hloc.symm] at hlast
      injection hlast with hr
      exact hr ▸ hreg
    · rw [if_neg (Ne.symm hloc)] at hlast
      exact h.last x hold r' hlast
  there := by
    intro r' hr'
    refine upsert_there hd ?_
    rcases List.mem_append.mp hr' with hold | hnew
    · exact .inr (h.there r' hold)
    · exact .inl (by rw [List.mem_singleton.mp hnew])

theorem upsertAll {before : List Registration} (hd : s.Distinct) (h : s.Follows before)
    (rs : List Registration) : (s.upsertAll rs).Follows (before ++ rs) := by
  induction rs generalizing s before with
  | nil => simpa [Store.upsertAll] using h
  | cons r rs ih =>
    rw [List.append_cons]
    exact ih (hd.upsert r) (h.upsert hd r)

/-- To register again what the sources are registered as changes no registration. -/
theorem registrations_again (hd : s.Distinct) (h : s.Follows rs) :
    (s.upsertAll rs).registrations = s.registrations := by
  rw [registrations, hd.upsertAll_sources h.there, List.map_map]
  refine List.map_congr_left fun x hx => ?_
  obtain ⟨hid, hreg⟩ := refreshedAll_registration x rs
  rw [Function.comp, hid, hreg]
  cases hlast : lastAt rs x.location with
  | none => rfl
  | some r => rw [h.last x hx r hlast]; rfl

/-- What is registered as the list has it already. -/
theorem upsert_listed {r r' : Registration} (hd : s.Distinct) (h : s.Follows rs)
    (hlast : lastAt rs (placeOf r) = some r') (hsame : r'.placed = r.placed) :
    (s.upsert r).2.Follows rs where
  last := by
    intro x hx r'' hlast'
    obtain ⟨hloc, hreg⟩ | ⟨-, hold⟩ := mem_upsert hd hx
    · rw [hloc, hlast] at hlast'
      injection hlast' with hr
      rw [hreg, ← hsame, hr]
    · exact h.last x hold r'' hlast'
  there := fun r'' hr'' => upsert_there hd (.inr (h.there r'' hr''))

/-- A source leaves the store and the list. -/
theorem without {s' : Store} {location : String} (h : s.Follows rs)
    (hmem : ∀ x, x ∈ s'.sources ↔ x ∈ s.sources ∧ x.location ≠ location) :
    s'.Follows (rs.filter (placeOf · != location)) where
  last := by
    intro x hx r hlast
    obtain ⟨hold, hloc⟩ := (hmem x).mp hx
    rw [lastAt_filter, if_neg hloc] at hlast
    exact h.last x hold r hlast
  there := by
    intro r hr
    obtain ⟨hmem', hne⟩ := List.mem_filter.mp hr
    obtain ⟨x, hx, hloc⟩ := h.there r hmem'
    exact ⟨x, (hmem x).mpr ⟨hx, by simpa [hloc] using hne⟩, hloc⟩

/-- A source is changed in the store and in the list alike. -/
theorem changed {s' : Store} {f : Registration → Registration} {g : Source → Source}
    (h : s.Follows rs) (hsources : s'.sources = s.sources.map g)
    (hf : ∀ r, placeOf (f r) = placeOf r) (hg : ∀ x ∈ s.sources, (g x).location = x.location)
    (hfg : ∀ x ∈ s.sources, ∀ r, placeOf r = x.location → x.registration = r.placed →
      (g x).registration = (f r).placed) :
    s'.Follows (rs.map f) where
  last := by
    intro x hx r hlast
    rw [hsources] at hx
    obtain ⟨old, hold, rfl⟩ := List.mem_map.mp hx
    rw [lastAt_map hf, hg old hold] at hlast
    obtain ⟨r', hr', rfl⟩ := Option.map_eq_some_iff.mp hlast
    exact hfg old hold r' (of_lastAt hr').2 (h.last old hold r' hr')
  there := by
    intro r hr
    obtain ⟨r', hr', rfl⟩ := List.mem_map.mp hr
    obtain ⟨x, hx, hloc⟩ := h.there r' hr'
    refine ⟨g x, ?_, ?_⟩
    · rw [hsources]
      exact List.mem_map_of_mem hx
    · rw [hg x hx, hloc, hf]

end Follows

/-- A store follows the list that was registered in it. -/
theorem Distinct.follows {s : Store} (hd : s.Distinct) (rs : List Registration) :
    (s.upsertAll rs).Follows rs := (Follows.nil s).upsertAll hd rs

/-- **To register a list changes no registration exactly where the store follows it already.** -/
theorem Distinct.registrations_again_iff {s : Store} (hd : s.Distinct) (rs : List Registration) :
    (s.upsertAll rs).registrations = s.registrations ↔ s.Follows rs :=
  ⟨fun hsame => (hd.follows rs).of_registrations hsame, fun h => h.registrations_again hd⟩

/-! ### Once and twice -/

/-- A registration takes the validators of its source away, or they may stay for all that were
registered so far. -/
theorem unshaken_upsert {s : Store} (hd : s.Distinct) {before : List Registration}
    (h : ∀ x ∈ s.sources, Unshaken x before) (r : Registration) :
    ∀ x ∈ (s.upsert r).2.sources, Unshaken x (before ++ [r]) := by
  -- a registration elsewhere is not about the source
  have helsewhere : ∀ x ∈ s.sources, x.location ≠ placeOf r → Unshaken x (before ++ [r]) := by
    intro x hx hloc
    refine (h x hx).imp_right fun hall r' hr' hloc' => ?_
    rcases List.mem_append.mp hr' with hold | hnew
    · exact hall r' hold hloc'
    · exact absurd (List.mem_singleton.mp hnew ▸ hloc') hloc
  intro x hx
  by_cases hthere : ∃ x ∈ s.sources, x.location = placeOf r
  · rw [hd.upsert_sources hthere] at hx
    obtain ⟨old, hold, rfl⟩ := List.mem_map.mp hx
    by_cases hloc : old.location = placeOf r
    · rw [if_pos hloc]
      by_cases hrole : SameRole old r
      · obtain ⟨htag, htime⟩ := refreshed_sameRole hrole
        refine (h old hold).imp (fun hnone => ⟨htag.trans hnone.1, htime.trans hnone.2⟩) ?_
        intro hall r' hr' hloc'
        rcases List.mem_append.mp hr' with hbefore | hnew
        · obtain ⟨hallow, hredirects⟩ := hall r' hbefore hloc'
          exact ⟨hrole.1.symm.trans hallow, hrole.2.symm.trans hredirects⟩
        · rw [List.mem_singleton.mp hnew]
          exact ⟨rfl, rfl⟩
      · exact .inl (refreshed_otherRole hrole)
    · rw [if_neg hloc]
      exact helsewhere old hold hloc
  · rw [upsert_sources_new hthere] at hx
    rcases List.mem_append.mp hx with hold | hnew
    · exact helsewhere x hold fun hloc => hthere ⟨x, hold, hloc⟩
    · rw [List.mem_singleton.mp hnew]
      exact .inl ⟨rfl, rfl⟩

theorem unshaken_upsertAll {s : Store} (hd : s.Distinct) {before : List Registration}
    (h : ∀ x ∈ s.sources, Unshaken x before) (rs : List Registration) :
    ∀ x ∈ (s.upsertAll rs).sources, Unshaken x (before ++ rs) := by
  induction rs generalizing s before with
  | nil => simpa [upsertAll] using h
  | cons r rs ih =>
    rw [List.append_cons]
    exact ih (hd.upsert r) (unshaken_upsert hd h r)

/-- **To register a list twice leaves the sources as registering it once does**, whatever it says
of a location more than once. -/
theorem Distinct.upsertAll_twice {s : Store} (hd : s.Distinct) (rs : List Registration) :
    ((s.upsertAll rs).upsertAll rs).sources = (s.upsertAll rs).sources := by
  have hfollows := hd.follows rs
  have hnone : ∀ x ∈ s.sources, Unshaken x [] :=
    fun _ _ => .inr fun _ hr => absurd hr List.not_mem_nil
  have hunshaken : ∀ x ∈ (s.upsertAll rs).sources, Unshaken x rs := unshaken_upsertAll hd hnone rs
  rw [(hd.upsertAll rs).upsertAll_sources hfollows.there]
  refine (List.map_congr_left fun x hx => ?_).trans (List.map_id _)
  exact (hunshaken x hx).refreshedAll_eq (hfollows.last x hx)

end Store

end Sinkhole
