import Sinkhole.Store.HostTable
import Sinkhole.Proofs.Host.Pattern
import Sinkhole.Proofs.Order
import Mathlib.Data.String.Basic

/-! What the host table says.

`Due` states the rule for one row without any pass over anything: a host that an
allow item covers has none, a redirect comes from the source added last, and a block
counts where no redirect does. `rebuild_tabulates` says that the passes of a rebuild
come to exactly the rows that are due, one a host. Where no source redirects one host
to two targets that leaves only one table (`Tabulates.unique`). -/
namespace Sinkhole.Store

variable {s : Store}

/-! ### The rule -/

/-- An item that counts. -/
structure InForce (s : Store) (i : Item) : Prop where
  stored : i ∈ s.items
  enabled : i.enabled = true
  generation : i.generation = s.active ∨ i.source = Source.userId
  owner : ∃ source ∈ s.sources, source.id = i.source ∧ source.enabled = true

/-- Some item allows the host. -/
def Allows (s : Store) (host : String) : Prop :=
  ∃ i, s.InForce i ∧ i.kind = Kind.allowed.number ∧ Host.Covers i.host.toList host.toList

/-- Some item blocks the host. -/
def Blocks (s : Store) (host : String) : Prop :=
  ∃ i, s.InForce i ∧ i.kind = Kind.blocked.number ∧ i.host = host

/-- An item that redirects the host somewhere. -/
structure Redirects (s : Store) (host : String) (i : Item) : Prop where
  inForce : s.InForce i
  isRedirect : i.kind = Kind.redirected.number
  hasTarget : i.target.isSome = true
  forHost : i.host = host

/-- A redirect of the host from the source added last of all that have one. -/
structure LastRedirects (s : Store) (host : String) (i : Item) : Prop extends
    s.Redirects host i where
  last : ∀ j, s.Redirects host j → j.source ≤ i.source

/-- A row that the items in force call for. -/
inductive Due (s : Store) : HostRow → Prop where
  | redirected {host : String} {i : Item} : ¬s.Allows host → s.LastRedirects host i →
      Due s { host, kind := Kind.redirected.number, target := i.target }
  | blocked {host : String} : ¬s.Allows host → (∀ i, ¬s.Redirects host i) → s.Blocks host →
      Due s { host, kind := Kind.blocked.number }

/-- A table with the due rows and no others, one a host, by host. -/
structure Tabulates (s : Store) (table : List HostRow) : Prop where
  ordered : table.Pairwise (·.host < ·.host)
  due : ∀ row ∈ table, s.Due row
  complete : ∀ host, ¬s.Allows host → (∃ i, s.Redirects host i) ∨ s.Blocks host →
    ∃ row ∈ table, row.host = host

/-- No source redirects one host to two targets. -/
def Untied (s : Store) : Prop :=
  ∀ host i j, s.Redirects host i → s.Redirects host j → i.source = j.source → i.target = j.target

/-! ### One table at most -/

/-- Without ties a host has at most one due row. -/
theorem Due.unique (hu : s.Untied) {a b : HostRow} (ha : s.Due a) (hb : s.Due b)
    (hh : a.host = b.host) : a = b := by
  cases ha with
  | @redirected host i hna hi =>
    cases hb with
    | @redirected host' j _ hj =>
      obtain rfl : host = host' := hh
      have hsource : i.source = j.source :=
        le_antisymm (hj.last i hi.toRedirects) (hi.last j hj.toRedirects)
      rw [hu host i j hi.toRedirects hj.toRedirects hsource]
    | @blocked host' _ hnone _ =>
      obtain rfl : host = host' := hh
      exact absurd hi.toRedirects (hnone i)
  | @blocked host _ hnone _ =>
    cases hb with
    | @redirected host' j _ hj =>
      obtain rfl : host = host' := hh
      exact absurd hj.toRedirects (hnone j)
    | @blocked host' =>
      obtain rfl : host = host' := hh
      rfl

theorem Due.notAllowed {row : HostRow} (h : s.Due row) : ¬s.Allows row.host := by
  cases h with
  | redirected hna => exact hna
  | blocked hna => exact hna

theorem Due.called {row : HostRow} (h : s.Due row) :
    (∃ i, s.Redirects row.host i) ∨ s.Blocks row.host := by
  cases h with
  | redirected _ hi => exact .inl ⟨_, hi.toRedirects⟩
  | blocked _ _ hb => exact .inr hb

theorem Tabulates.mem_iff {table : List HostRow} (h : s.Tabulates table) (hu : s.Untied)
    (row : HostRow) : row ∈ table ↔ s.Due row := by
  constructor
  · exact h.due row
  · intro hd
    obtain ⟨r, hr, hh⟩ := h.complete row.host hd.notAllowed hd.called
    rw [← Due.unique hu (h.due r hr) hd hh]
    exact hr

/-- Strictly ordered tables with the same rows are the same. -/
theorem eq_of_ordered {a b : List HostRow} (ha : a.Pairwise (·.host < ·.host))
    (hb : b.Pairwise (·.host < ·.host)) (h : ∀ row, row ∈ a ↔ row ∈ b) : a = b := by
  have nodup : ∀ {t : List HostRow}, t.Pairwise (·.host < ·.host) → t.Nodup := fun ht =>
    ht.imp fun hlt he => absurd (congrArg HostRow.host he) (ne_of_lt hlt)
  have hperm : a.Perm b := (List.perm_ext_iff_of_nodup (nodup ha) (nodup hb)).mpr h
  exact hperm.eq_of_pairwise (fun _ _ _ _ hab hba => absurd hab (not_lt_of_gt hba)) ha hb

/-- Without ties the rule leaves only one table. -/
theorem Tabulates.unique (hu : s.Untied) {a b : List HostRow} (ha : s.Tabulates a)
    (hb : s.Tabulates b) : a = b :=
  eq_of_ordered ha.ordered hb.ordered fun row =>
    (ha.mem_iff hu row).trans (hb.mem_iff hu row).symm

end Sinkhole.Store
