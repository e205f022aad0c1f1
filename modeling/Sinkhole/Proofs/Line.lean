import Sinkhole.Line
import Sinkhole.Store.HostTable
import Sinkhole.Proofs.Host.Name
import Sinkhole.Proofs.Text.Marks

/-! What the entry of a line says about a host.

A line states an entry in one of four ways (`Stated`), and in each of them the host is
what `Host.normal` leaves of some part of the line. After the last check it has no blank
in it, so it is normal through and through: whatever spelling is asked about later, it is
found under this one (`classify_settled`). The names that hosts files reserve are only
kept out of lines of that form (`reserved_iff`). -/
namespace Sinkhole

/-- A ruling is read off the row of the host that is asked about, under whatever spelling. -/
theorem Store.ruling_spelled (s : Store) {spelling host : String}
    (h : Host.normalized spelling = host) :
    s.ruling spelling = ((s.table.find? (·.host == host)).map HostRow.ruling).getD .allowed := by
  rw [Store.ruling, h]
  cases s.table.find? (·.host == host) <;> rfl

namespace Line

open Text

variable {role : Role} {redirects : Bool} {line candidate : List Char} {e : Entry}

/-! ### The ways in which a line states an entry -/

/-- What a line comes to before the last check: a host that a hosts file blocks or redirects, one
that another form names, or a pattern. -/
inductive Stated (redirects : Bool) (line : List Char) : Role → Entry → Prop where
  | sinkhole {address host a} (fields : hostsFields? line = some (address, host))
      (free : Host.normal host ∉ reserved) (read : Address.read? address = some a)
      (sinkhole : a.isSinkhole = true) :
      Stated redirects line .block (.blocked (String.ofList (Host.normal host)))
  | redirect {address host a} (fields : hostsFields? line = some (address, host))
      (free : Host.normal host ∉ reserved) (read : Address.read? address = some a)
      (real : a.isSinkhole = false) (redirecting : redirects = true) :
      Stated redirects line .block (.redirected (String.ofList (Host.normal host)) a)
  | form {host} (fields : hostsFields? line = none)
      (entry : formEntry? line = some (.blocked (String.ofList (Host.normal host)))) :
      Stated redirects line .block (.blocked (String.ofList (Host.normal host)))
  | pattern (host : List Char) :
      Stated redirects line .allow (.allowed (String.ofList (Host.normal host)))

theorem hostsEntry_stated {address host : List Char}
    (fields : hostsFields? line = some (address, host))
    (h : hostsEntry? redirects address host = some e) : Stated redirects line .block e := by
  unfold hostsEntry? at h
  dsimp only at h
  split at h
  · cases h
  rename_i hfree
  have free : Host.normal host ∉ reserved := by simpa using hfree
  split at h
  · cases h
  rename_i a read
  split at h
  · cases h
    exact .sinkhole fields free read ‹_›
  · split at h
    · cases h
      exact .redirect fields free read (eq_false_of_ne_true ‹_›) ‹_›
    · cases h

/-- A candidate that yields a name yields a normal one. -/
theorem candidateName_some {name : List Char} (h : candidateName? candidate = some name) :
    Host.isName name = true ∧ ∃ host, name = Host.normal host ∧
      host = (candidate.dropWhile fun c => c == '.' || c == '|').takeWhile (!endsHost ·) ∧
      host ≠ [] := by
  unfold candidateName? at h
  dsimp only at h
  split at h
  · cases h
  rename_i hrefused
  split at h
  · cases h
    refine ⟨‹_›, _, rfl, rfl, fun hnil => hrefused ?_⟩
    rw [hnil]
    rfl
  · cases h

/-- The other forms block the name in the first candidate that yields one. -/
theorem formEntry_some (h : formEntry? line = some e) : withoutComment line ≠ [] ∧
    ∃ form candidate name, Form.candidate? form (withoutComment line) = some candidate ∧
      candidateName? candidate = some name ∧ e = .blocked (String.ofList name) := by
  unfold formEntry? at h
  split at h
  · cases h
  split at h
  · cases h
  split at h
  · cases h
  dsimp only at h
  split at h
  · cases h
  rename_i hline
  refine ⟨fun hnil => hline (List.isEmpty_iff.mpr hnil), ?_⟩
  obtain ⟨name, hname, rfl⟩ := Option.map_eq_some_iff.mp h
  obtain ⟨candidate, hmem, hyields⟩ := List.exists_of_findSome?_eq_some hname
  obtain ⟨form, -, hform⟩ := List.mem_filterMap.mp hmem
  exact ⟨form, candidate, name, hform, hyields, rfl⟩

theorem blockEntry_stated (h : blockEntry? redirects line = some e) :
    Stated redirects line .block e := by
  unfold blockEntry? at h
  split at h
  · exact hostsEntry_stated ‹_› h
  · obtain ⟨-, form, candidate, name, -, hyields, rfl⟩ := formEntry_some h
    obtain ⟨-, host, rfl, -⟩ := candidateName_some hyields
    exact .form ‹_› h

theorem allowEntry_stated (h : allowEntry? line = some e) : Stated redirects line .allow e := by
  obtain ⟨host, hhost⟩ : ∃ host, (if (Host.normal host).isEmpty = true then none
      else some (Entry.allowed (String.ofList (Host.normal host)))) = some e := ⟨_, h⟩
  split at hhost
  · cases hhost
  · cases hhost
    exact .pattern host

/-- What a line is classified as it states, and it has passed the check. -/
theorem classify_stated (h : classify role redirects line = some e) :
    Stated redirects (trim line) role e ∧ isAcceptable e = true := by
  unfold classify at h
  dsimp only at h
  split at h
  · cases h
  obtain ⟨hentry, haccepted⟩ := Option.filter_eq_some_iff.mp h
  refine ⟨?_, haccepted⟩
  cases role with
  | block => exact blockEntry_stated hentry
  | allow => exact allowEntry_stated hentry

/-! ### Entries are settled -/

theorem Stated.normal (h : Stated redirects line role e) :
    ∃ host, e.host.toList = Host.normal host := by
  cases h <;> exact ⟨_, String.toList_ofList⟩

theorem isAcceptable_chars (h : isAcceptable e = true) {c : Char} (hc : c ∈ e.host.toList) :
    Host.IsHostChar c := by
  cases e with
  | blocked => exact (Host.isName_chars h hc).imp_right .inl
  | allowed | redirected => exact Host.isPattern_chars h hc

/-- The host of an entry is normal. -/
theorem classify_normal (h : classify role redirects line = some e) :
    Host.IsNormal e.host.toList := by
  obtain ⟨hstated, haccepted⟩ := classify_stated h
  obtain ⟨host, hhost⟩ := hstated.normal
  rw [hhost]
  refine Host.normal_isNormal fun c hc => (isAcceptable_chars haccepted ?_).isBlank
  rwa [hhost]

/-- What each kind of entry has passed, and which lists it can come from. -/
inductive Fits (role : Role) (redirects : Bool) : Entry → Prop where
  | blocked {host} (block : role = .block) (name : Host.isName host.toList = true)
      (noAddress : Address.isText host.toList = false) : Fits role redirects (.blocked host)
  | allowed {pattern} (allow : role = .allow) (accepted : Host.isPattern pattern.toList = true) :
      Fits role redirects (.allowed pattern)
  | redirected {host target} (block : role = .block) (redirecting : redirects = true)
      (accepted : Host.isPattern host.toList = true) (real : target.isSinkhole = false) :
      Fits role redirects (.redirected host target)

theorem classify_fits (h : classify role redirects line = some e) : Fits role redirects e := by
  obtain ⟨hstated, haccepted⟩ := classify_stated h
  have hnormal := classify_normal h
  cases hstated with
  | sinkhole | form => exact .blocked rfl haccepted (Host.isName_isText haccepted hnormal.noDot)
  | redirect _ _ _ real redirecting => exact .redirected rfl redirecting haccepted real
  | pattern => exact .allowed rfl haccepted

/-- **An entry is settled when it leaves its line.** Its host is normal; the texts that are looked
up under it are exactly its spellings, and each of them reads the row that has it for its key; and
the entry has passed the check for its kind, in a list that can have such entries. -/
theorem classify_settled (h : classify role redirects line = some e) :
    Host.IsNormal e.host.toList ∧
      (∀ spelling, Host.normalized spelling = e.host ↔
        Host.Spells spelling.toList e.host.toList) ∧
      (∀ (s : Store) (spelling : String), Host.Spells spelling.toList e.host.toList →
        s.ruling spelling =
          ((s.table.find? (·.host == e.host)).map HostRow.ruling).getD .allowed) ∧
      Fits role redirects e := by
  have hnormal := classify_normal h
  have hspelled : ∀ spelling, Host.normalized spelling = e.host ↔
      Host.Spells spelling.toList e.host.toList := by
    intro spelling
    rw [← Host.normal_eq_iff hnormal, Host.normalized, ← String.toList_inj, String.toList_ofList]
  exact ⟨hnormal, hspelled, fun s spelling hs => s.ruling_spelled ((hspelled spelling).mpr hs),
    classify_fits h⟩

/-- A redirect in capitals with a dot behind it, asked about in another spelling. -/
theorem classify_settled_redirect :
    classify .block true "10.0.0.5  Intranet.EXAMPLE. # router".toList =
        some (.redirected "intranet.example" (.v4 #v[10, 0, 0, 5])) ∧
      Fits .block true (.redirected "intranet.example" (.v4 #v[10, 0, 0, 5])) ∧
      ∀ s : Store, s.ruling " INTRANET.example.. " =
        ((s.table.find? (·.host == "intranet.example")).map HostRow.ruling).getD .allowed := by
  have h : classify .block true "10.0.0.5  Intranet.EXAMPLE. # router".toList =
      some (.redirected "intranet.example" (.v4 #v[10, 0, 0, 5])) := by decide +kernel
  obtain ⟨-, -, hread, hfits⟩ := classify_settled h
  refine ⟨h, hfits, fun s => hread s _ ⟨[' '], "INTRANET.example".toList, ['.', '.'], [' '],
    by decide +kernel, by decide +kernel, fun c hc => ?_, ?_, ?_⟩⟩
  · exact List.eq_of_mem_replicate (n := 2) hc
  · exact List.forall_mem_singleton.mpr rfl
  · exact List.forall_mem_singleton.mpr rfl

/-! ### Lines that are none of a hosts file -/

theorem withoutComment_prefix (line : List Char) : withoutComment line <+: line := by
  unfold withoutComment
  split
  · exact (List.rdropWhile_prefix _ _).trans (List.takeWhile_prefix _)
  · exact List.prefix_rfl

/-- A line keeps the character it starts with when its comment is cut off. -/
theorem withoutComment_cons {c : Char} (hmark : c ≠ '#') (hblank : isBlank c = false)
    (rest : List Char) : ∃ rest', withoutComment (c :: rest) = c :: rest' := by
  unfold withoutComment
  split
  · rw [List.takeWhile_cons_of_pos (by simpa using hmark)]
    exact ⟨_, dropEndWhile_cons hblank _⟩
  · exact ⟨rest, rfl⟩

/-- A bare host is all of its line, with no blank in it. -/
theorem bare_candidate (h : Form.candidate? .bare line = some candidate) :
    candidate = line ∧ ∀ c ∈ line, isBlank c = false := by
  rw [Form.candidate?] at h
  split at h
  · cases h
  · rename_i hbare
    refine ⟨(Option.some.inj h).symm, fun c hc => Bool.eq_false_iff.mpr fun hblank => hbare ?_⟩
    rw [Bool.or_eq_true]
    exact .inr (List.any_eq_true.mpr ⟨c, hc, hblank⟩)

/-- The characters that such a line can begin with, if it names a host: a bar, a point, or one of
a label. -/
def Opens (c : Char) : Prop := c = '|' ∨ c = '.' ∨ Host.isLabelChar c = true

theorem Opens.graphic {c : Char} (h : Opens c) : 33 ≤ c.toNat ∧ c.toNat ≤ 126 := by
  rcases h with rfl | rfl | hlabel
  · decide
  · decide
  · exact Host.isLabelChar_graphic hlabel

theorem Opens.ne {c d : Char} (h : Opens c) (hd : d ∈ ['#', '!', '@', '[']) : c ≠ d := by
  rintro rfl
  revert h hd
  simp only [List.mem_cons, List.not_mem_nil, or_false]
  rintro h (rfl | rfl | rfl | rfl) <;> exact absurd h (by unfold Opens; decide)

theorem formEntry_opens (h : formEntry? line = some e) : ∃ c rest, line = c :: rest ∧ Opens c := by
  obtain ⟨hline, form, candidate, name, hform, hyields, -⟩ := formEntry_some h
  have hkept := withoutComment_prefix line
  cases hcut : withoutComment line with
  | nil => exact absurd hcut hline
  | cons c rest =>
    rw [hcut] at hkept hform
    obtain ⟨more, rfl⟩ := hkept
    refine ⟨c, rest ++ more, rfl, ?_⟩
    cases form with
    | adblock => exact .inl (List.cons_eq_cons.mp (after?_eq_some.mp hform)).1
    | url =>
      obtain ⟨behind, hbar, -⟩ := Option.bind_eq_some_iff.mp hform
      exact .inl (List.cons_eq_cons.mp (after?_eq_some.mp hbar)).1
    | resolver =>
      obtain ⟨behind, hkey, -⟩ := Option.bind_eq_some_iff.mp hform
      have hc : c = 'a' := (List.cons_eq_cons.mp (after?_eq_some.mp hkey)).1
      exact .inr (.inr (hc ▸ rfl))
    | bare =>
      obtain ⟨rfl, hblank⟩ := bare_candidate hform
      obtain ⟨hname, host, rfl, hhost, hne⟩ := candidateName_some hyields
      by_cases hlead : (c == '.' || c == '|') = true
      · simp only [Bool.or_eq_true, beq_iff_eq] at hlead
        exact hlead.elim (fun hc => .inr (.inl hc)) .inl
      · -- then the name begins with it
        have hstart : (c :: rest).dropWhile (fun c => c == '.' || c == '|') = c :: rest :=
          List.dropWhile_cons_of_neg (by simpa using hlead)
        rw [hstart, List.takeWhile_cons] at hhost
        split at hhost
        · have hc : c ∈ host := hhost ▸ List.mem_cons_self
          have hdot : c ≠ '.' := fun hc => hlead (by simp [hc])
          have hmem := Host.mem_normal hc (hblank c List.mem_cons_self) hdot
          rcases Host.isName_chars hname hmem with hlower | hlabel
          · exact absurd (toLower_eq_dot.mp hlower) hdot
          · exact .inr (.inr (Host.isLabelChar_of_toLower hlabel))
        · exact absurd hhost hne

/-- The name in the first candidate of a line that yields one. -/
def firstName? (line : List Char) : Option (List Char) :=
  (Form.all.filterMap (·.candidate? line)).findSome? candidateName?

/-- A line that opens as one that names a host can only be kept from it by a mark of page
elements. -/
theorem formEntry_of_opens {c : Char} (hc : Opens c) (rest : List Char) :
    formEntry? (c :: rest) =
      if elementMarks.any (holds · (c :: rest)) then none
      else (firstName? (withoutComment (c :: rest))).map fun name =>
        .blocked (String.ofList name) := by
  have hexception : after? ['@', '@'] (c :: rest) = none :=
    Option.eq_none_iff_forall_ne_some.mpr fun _ h =>
      hc.ne (d := '@') (by decide) (List.cons_eq_cons.mp (after?_eq_some.mp h)).1
  have hheader : (c == '[') = false := beq_eq_false_iff_ne.mpr (hc.ne (by decide))
  obtain ⟨kept, hkept⟩ := withoutComment_cons (hc.ne (d := '#') (by decide))
    (isBlank_of_graphic hc.graphic.1 hc.graphic.2) rest
  unfold formEntry?
  simp only [hexception, hheader, hkept, firstName?, List.head?_cons, Option.isSome_none,
    Option.some_beq_some, List.isEmpty_cons, Bool.false_and, Bool.false_eq_true, if_false]

/-- A line that names a host in one of the other forms is no comment. -/
theorem formEntry_head (h : formEntry? line = some e) :
    line.isEmpty = false ∧ line.head? ≠ some '#' ∧ line.head? ≠ some '!' := by
  obtain ⟨c, rest, rfl, hopens⟩ := formEntry_opens h
  refine ⟨rfl, fun hhash => ?_, fun hmark => ?_⟩
  · exact hopens.ne (by decide) (Option.some.inj hhash)
  · exact hopens.ne (by decide) (Option.some.inj hmark)

/-! ### Reserved names -/

theorem Stated.host_reserved (h : Stated redirects line .block e)
    (hreserved : e.host.toList ∈ reserved) :
    hostsFields? line = none ∧ formEntry? line = some e := by
  cases h with
  | sinkhole _ free | redirect _ free =>
    rw [Entry.host, String.toList_ofList] at hreserved
    exact absurd hreserved free
  | form fields entry => exact ⟨fields, entry⟩

/-- **A line of a block list states a reserved name exactly when it is none of a hosts file and
names it in one of the other forms**: only lines of hosts files are held to them. -/
theorem reserved_iff (redirects : Bool) (line : List Char) :
    (∃ e, classify .block redirects line = some e ∧ e.host.toList ∈ reserved) ↔
      hostsFields? (trim line) = none ∧
        ∃ name ∈ reserved, formEntry? (trim line) = some (.blocked (String.ofList name)) := by
  constructor
  · rintro ⟨e, h, hreserved⟩
    obtain ⟨hfields, hentry⟩ := (classify_stated h).1.host_reserved hreserved
    refine ⟨hfields, e.host.toList, hreserved, ?_⟩
    obtain ⟨-, _, _, name, -, -, rfl⟩ := formEntry_some hentry
    rw [hentry, Entry.host, String.toList_ofList]
  · rintro ⟨hfields, name, hreserved, hentry⟩
    obtain ⟨hempty, hhash, hmark⟩ := formEntry_head hentry
    obtain ⟨-, _, _, name', -, hyields, hname⟩ := formEntry_some hentry
    refine ⟨_, ?_, by rwa [Entry.host, String.toList_ofList]⟩
    have haccepted : isAcceptable (.blocked (String.ofList name)) = true := by
      rw [hname, isAcceptable, String.toList_ofList]
      exact (candidateName_some hyields).1
    simp only [classify, blockEntry?, hfields, hentry, hempty, hhash, hmark, haccepted,
      Option.filter_some, beq_iff_eq, Bool.or_eq_true, Bool.false_eq_true, or_self, if_false, if_true]

/-- A line that is a reserved name and nothing else blocks it. -/
theorem localhost_listed : "localhost".toList ∈ reserved ∧
    classify .block false "localhost".toList = some (.blocked "localhost") := by
  decide +kernel

end Line

end Sinkhole
