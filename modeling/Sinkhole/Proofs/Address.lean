import Sinkhole.Address
import Sinkhole.Proofs.Text.Trim

/-! The characters that an address is written with.

Each reader of a part of an address takes characters of addresses from the front of a
text and leaves the rest as it is (`Leads`), so what is read to its end is made of
nothing else: hexadecimal digits, points and colons. -/
namespace Sinkhole.Address

variable {cs rest : List Char} {c : Char}

/-- The characters that addresses of either family are written with. -/
def IsAddressChar (c : Char) : Prop := (digit? 16 c).isSome = true ∨ c = '.' ∨ c = ':'

theorem isSome_digit? {base : Nat} (hbase : base ≤ 16) {d : Nat} (h : digit? base c = some d) :
    (digit? 16 c).isSome = true := by
  unfold digit? at h ⊢
  dsimp only at h ⊢
  generalize (if 0x30 ≤ c.toNat && c.toNat ≤ 0x39 then _ else _ : Nat) = value at h ⊢
  split at h
  · rw [if_pos (by omega)]
    rfl
  · cases h

theorem IsAddressChar.graphic (h : IsAddressChar c) : 46 ≤ c.toNat ∧ c.toNat ≤ 102 := by
  rcases h with hdigit | rfl | rfl
  · unfold digit? at hdigit
    dsimp only at hdigit
    simp only [Bool.and_eq_true, decide_eq_true_eq] at hdigit
    split at hdigit
    · omega
    · split at hdigit
      · omega
      · split at hdigit
        · omega
        · simp at hdigit
  · decide
  · decide

/-! ### Parts of an address -/

/-- What stands before `rest` in `cs` is made of characters of addresses. -/
def Leads (cs rest : List Char) : Prop :=
  ∃ front, cs = front ++ rest ∧ ∀ c ∈ front, IsAddressChar c

namespace Leads

theorem refl (cs : List Char) : Leads cs cs := ⟨[], rfl, nofun⟩

theorem trans {middle : List Char} (h : Leads cs middle) (h' : Leads middle rest) :
    Leads cs rest := by
  obtain ⟨front, rfl, hfront⟩ := h
  obtain ⟨next, rfl, hnext⟩ := h'
  refine ⟨front ++ next, (List.append_assoc ..).symm, fun c hc => ?_⟩
  exact (List.mem_append.mp hc).elim (hfront c) (hnext c)

theorem cons (hc : IsAddressChar c) (h : Leads cs rest) : Leads (c :: cs) rest := by
  obtain ⟨front, rfl, hfront⟩ := h
  exact ⟨c :: front, rfl, List.forall_mem_cons.mpr ⟨hc, hfront⟩⟩

end Leads

theorem leadingNumber_leads {base : Nat} (hbase : base ≤ 16) (cs : List Char) (read : Nat × Nat) :
    Leads cs (leadingNumber base cs read).2.2 := by
  induction cs generalizing read with
  | nil => exact .refl []
  | cons c cs ih =>
    rw [leadingNumber]
    split
    · rename_i d hd
      exact (ih _).cons (.inl (isSome_digit? hbase hd))
    · exact .refl _

theorem octet?_leads {o : UInt8} (h : octet? cs = some (o, rest)) : Leads cs rest := by
  unfold octet? at h
  dsimp only at h
  split at h
  · cases h
  · cases h
    exact leadingNumber_leads (by decide) cs (0, 0)

theorem group?_leads {g : UInt16} (h : group? cs = some (g, rest)) : Leads cs rest := by
  unfold group? at h
  dsimp only at h
  split at h
  · cases h
  · cases h
    exact leadingNumber_leads (by decide) cs (0, 0)

theorem skip?_leads (hc : IsAddressChar c) (h : skip? c cs = some rest) : Leads cs rest := by
  cases cs with
  | nil => cases h
  | cons d cs =>
    rw [skip?] at h
    split at h
    · rename_i hd
      cases h
      exact (Leads.refl rest).cons (hd ▸ hc)
    · cases h

theorem octets?_leads {o : Vector UInt8 4} (h : octets? cs = some (o, rest)) : Leads cs rest := by
  have hpoint : IsAddressChar '.' := .inr (.inl rfl)
  unfold octets? at h
  simp only [Option.bind_eq_bind, Option.bind_eq_some_iff, Option.pure_def, Option.some.injEq,
    Prod.exists, Prod.mk.injEq] at h
  obtain ⟨a, cs₁, ha, cs₁', hp₁, b, cs₂, hb, cs₂', hp₂, c, cs₃, hc, cs₃', hp₃, d, cs₄, hd, -, rfl⟩ := h
  exact (octet?_leads ha).trans ((skip?_leads hpoint hp₁).trans ((octet?_leads hb).trans
    ((skip?_leads hpoint hp₂).trans ((octet?_leads hc).trans ((skip?_leads hpoint hp₃).trans
      (octet?_leads hd))))))

theorem stretch_leads (room : Nat) (first : Bool) (cs : List Char) :
    Leads cs (stretch room first cs).rest := by
  have hcolon : IsAddressChar ':' := .inr (.inr rfl)
  induction room generalizing first cs with
  | zero => exact .refl cs
  | succ room ih =>
    rw [stretch]
    split
    · exact .refl cs
    · rename_i cs' hcs'
      have hstart : Leads cs cs' := by
        cases first with
        | true =>
          cases hcs'
          exact .refl _
        | false => exact skip?_leads hcolon hcs'
      split
      · rename_i o rest ho
        split at ho
        · cases ho
        · exact hstart.trans (octets?_leads ho)
      · split
        · exact .refl cs
        · rename_i g rest hg
          exact hstart.trans ((group?_leads hg).trans (ih false rest))

theorem groups?_leads {g : Vector UInt16 8} (h : groups? cs = some (g, rest)) :
    Leads cs rest := by
  have hcolon : IsAddressChar ':' := .inr (.inr rfl)
  have hfront := stretch_leads 8 true cs
  unfold groups? at h
  dsimp only at h
  split at h
  · cases h
    exact hfront
  · split at h
    · cases h
    · simp only [Option.bind_eq_bind, Option.bind_eq_some_iff, Option.pure_def,
        Option.some.injEq, Prod.mk.injEq] at h
      obtain ⟨cs₁, h₁, cs₂, h₂, -, rfl⟩ := h
      exact hfront.trans ((skip?_leads hcolon h₁).trans ((skip?_leads hcolon h₂).trans
        (stretch_leads _ true cs₂)))

/-! ### Whole addresses -/

/-- **A text that stands for an address is made of characters of addresses.** -/
theorem read?_chars {a : Address} (h : read? cs = some a) : ∀ c ∈ cs, IsAddressChar c := by
  have hall : ∀ {rest : List Char}, Leads cs rest → rest.isEmpty = true →
      ∀ c ∈ cs, IsAddressChar c := by
    rintro rest ⟨front, rfl, hfront⟩ hrest c hc
    rw [List.isEmpty_iff.mp hrest, List.append_nil] at hc
    exact hfront c hc
  unfold read? at h
  split at h
  · rename_i o rest ho
    split at h
    · exact hall (octets?_leads ho) ‹_›
    · cases h
  · split at h
    · rename_i g rest hg
      split at h
      · exact hall (groups?_leads hg) ‹_›
      · cases h
    · cases h

theorem ne_nil_of_read? {a : Address} (h : read? cs = some a) : cs ≠ [] := by
  rintro rfl
  cases h

end Sinkhole.Address
