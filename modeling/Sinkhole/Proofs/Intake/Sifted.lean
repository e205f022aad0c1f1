import Sinkhole.Intake
import Mathlib.Data.List.Basic

/-! What is left of a list's entries when repetitions are held back.

Whatever remembers the blocked hosts, and however soon it gives up, no entry is ever
lost: it may only be that a blocked host is there less often than the list has it.
`Sifted` says so of two lists of entries in any order, since the order in which
entries arrive is not settled where several sorters are at work. So it is whatever
the order is (`handedOn_sifted`). -/
namespace Sinkhole

namespace Intake.Sifted

variable {filtering : Bool} {all kept kept' : List Entry}

theorem refl (filtering : Bool) (all : List Entry) : Sifted filtering all all :=
  ⟨fun _ _ => rfl, fun _ => Nat.le_refl _, fun _ he => he⟩

/-- The order of what is kept does not matter. -/
theorem perm (h : Sifted filtering all kept) (hp : kept'.Perm kept) :
    Sifted filtering all kept' where
  exact e he := (hp.count_eq e).trans (h.exact e he)
  few e := (hp.count_eq e).symm ▸ h.few e
  whole e he := hp.mem_iff.mpr (h.whole e he)

/-- A blocked host that is there once more may be held back. -/
theorem drop {host : String} (h : Sifted true all (.blocked host :: kept))
    (hm : .blocked host ∈ kept) : Sifted true all kept where
  exact e he := by
    rw [← h.exact e he, List.count_cons_of_ne (Ne.symm (he rfl host))]
  few e := Nat.le_trans List.count_le_count_cons (h.few e)
  whole e he := by
    obtain rfl | hk := List.mem_cons.mp (h.whole e he)
    · exact hm
    · exact hk

/-- Nothing is kept that was not there. -/
theorem mem_iff (h : Sifted filtering all kept) (e : Entry) : e ∈ kept ↔ e ∈ all := by
  refine ⟨fun hk => ?_, h.whole e⟩
  have hpos : 0 < kept.count e := List.count_pos_iff.mpr hk
  exact List.count_pos_iff.mp (Nat.lt_of_lt_of_le hpos (h.few e))

end Intake.Sifted

/-! ### One list after the other -/

namespace Sightings

variable {s : Sightings} {host : String}

theorem sight_off (h : s.filtering = false) : s.sight host = (true, s) := by simp [sight, h]

theorem sight_known (h : s.filtering = true) (hs : host ∈ s.seen) :
    s.sight host = (false, s) := by simp [sight, h, hs]

theorem sight_full (h : s.filtering = true) (hs : host ∉ s.seen) (hc : s.cap ≤ s.seen.length) :
    s.sight host = (true, { s with seen := [], filtering := false }) := by
  simp [sight, h, hs, hc]

theorem sight_new (h : s.filtering = true) (hs : host ∉ s.seen) (hc : ¬ s.cap ≤ s.seen.length) :
    s.sight host = (true, { s with seen := host :: s.seen }) := by simp [sight, h, hs, hc]

/-- A host is held back only if it is remembered, and only hosts that were let through are. -/
theorem sight_cases (s : Sightings) (host : String) :
    ((s.sight host).1 = false ∧ host ∈ s.seen ∧ (s.sight host).2 = s) ∨
      ((s.sight host).1 = true ∧ ∀ h ∈ (s.sight host).2.seen, h = host ∨ h ∈ s.seen) := by
  cases hf : s.filtering with
  | false => exact .inr (by rw [sight_off hf]; exact ⟨rfl, fun h hh => .inr hh⟩)
  | true =>
    by_cases hs : host ∈ s.seen
    · exact .inl (by rw [sight_known hf hs]; exact ⟨rfl, hs, rfl⟩)
    · by_cases hc : s.cap ≤ s.seen.length
      · exact .inr (by rw [sight_full hf hs hc]; exact ⟨rfl, nofun⟩)
      · exact .inr (by rw [sight_new hf hs hc]; exact ⟨rfl, fun h hh => List.mem_cons.mp hh⟩)

end Sightings

namespace Intake

theorem admitted_none (entries : List Entry) : admitted none entries = entries := by
  cases entries <;> rfl

theorem admitted_blocked (s : Sightings) (host : String) (rest : List Entry) :
    admitted (some s) (.blocked host :: rest) =
      if (s.sight host).1 then .blocked host :: admitted (some (s.sight host).2) rest
      else admitted (some (s.sight host).2) rest := rfl

/-- What is admitted after `before` was, by a memory that holds only hosts from there. -/
theorem sifted_after (s : Sightings) (all before entries : List Entry)
    (hseen : ∀ h ∈ s.seen, .blocked h ∈ before) (h : Sifted true all (before ++ entries)) :
    Sifted true all (before ++ admitted (some s) entries) := by
  induction entries generalizing s before with
  | nil => exact h
  | cons e entries ih =>
    -- an entry that is let through belongs to what was admitted before the next one
    have pass : ∀ s' : Sightings, (∀ h ∈ s'.seen, .blocked h ∈ before ++ [e]) →
        Sifted true all (before ++ e :: admitted (some s') entries) := by
      intro s' hseen'
      rw [List.append_cons]
      exact ih s' (before ++ [e]) hseen' (by rwa [← List.append_cons])
    cases e with
    | blocked host =>
      rw [admitted_blocked]
      rcases s.sight_cases host with ⟨hfirst, hknown, hsame⟩ | ⟨hfirst, hnew⟩
      · rw [hfirst, hsame, if_neg Bool.false_ne_true]
        refine ih s before hseen ((h.perm List.perm_middle.symm).drop ?_)
        exact List.mem_append_left _ (hseen host hknown)
      · rw [hfirst, if_pos rfl]
        refine pass _ fun g hg => ?_
        rcases hnew g hg with rfl | hold
        · simp
        · exact List.mem_append_left _ (hseen g hold)
    | allowed pattern => exact pass s fun g hg => List.mem_append_left _ (hseen g hg)
    | redirected host target => exact pass s fun g hg => List.mem_append_left _ (hseen g hg)

/-- Whatever the cap, what is admitted of a list is what is left of it. -/
theorem admitted_sifted (cap : Option Nat) (entries : List Entry) :
    Sifted cap.isSome entries (admitted (cap.map Sightings.start) entries) := by
  cases cap with
  | none => rw [Option.map_none, admitted_none]; exact .refl _ _
  | some c =>
    exact sifted_after (Sightings.start c) entries [] entries
      (fun h hh => absurd hh List.not_mem_nil) (.refl _ _)

/-- And so it is whatever the order in which they arrive. -/
theorem handedOn_sifted (cap : Option Nat) (arrival : Option Arrival) (entries : List Entry) :
    Sifted cap.isSome entries (handedOn cap arrival entries) := by
  cases arrival with
  | none => exact admitted_sifted cap entries
  | some a => exact a.sifted cap.isSome entries

end Intake

end Sinkhole
