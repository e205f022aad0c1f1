import Sinkhole.Proofs.Address
import Sinkhole.Proofs.Line

/-! The ways in which a list can write a host that it blocks.

Lists in circulation write the same host in five ways (`Written`): behind a sinkhole's
address, as a resolver rule, alone, as an ad-block rule and as an anchored URL rule.
Whatever stands around the host in each of them, the line blocks that host and nothing
else (`classify_written`). A line of a hosts file is known by its first two words. Each
of the others is one word, and the forms that are tried earlier either have no candidate
in it or would have the same. -/
namespace Sinkhole.Line

open Text

variable {redirects : Bool} {host line body front back : List Char}

/-- A host as it is stored, and none that hosts files reserve. -/
structure Blockable (host : List Char) : Prop where
  name : Host.isName host = true
  lower : lower host = host
  noDot : ∀ c ∈ host.getLast?, c ≠ '.'
  free : host ∉ reserved

/-- A character that neither parts words nor begins a comment. -/
def IsPlain (c : Char) : Prop := isBlank c = false ∧ c ≠ '#'

instance : DecidablePred IsPlain := fun _ => inferInstanceAs (Decidable (_ ∧ _))

theorem IsPlain.of_all {cs : List Char} (h : cs.all (fun c => decide (IsPlain c)) = true) :
    ∀ c ∈ cs, IsPlain c := fun c hc => of_decide_eq_true (List.all_eq_true.mp h c hc)

theorem IsPlain.of_isLabelChar {c : Char} (h : Host.isLabelChar c = true) : IsPlain c := by
  obtain ⟨hlow, hhigh⟩ := Host.isLabelChar_graphic h
  refine ⟨isBlank_of_graphic hlow hhigh, ?_⟩
  rintro rfl
  cases h

theorem IsPlain.of_isAlpha {c : Char} (h : c.isAlpha = true) : IsPlain c :=
  .of_isLabelChar (by rw [Host.isLabelChar, Host.isAsciiAlnum, h]; rfl)

/-- The lines that name a host, without the blanks around them. -/
inductive Written (host : List Char) : List Char → Prop where
  | hosts {address gap more : List Char} {a : Address} (read : Address.read? address = some a)
      (sinkhole : a = .v4 #v[0, 0, 0, 0] ∨ a = .v4 #v[127, 0, 0, 1] ∨
        a = .v6 #v[0, 0, 0, 0, 0, 0, 0, 1])
      (apart : gap ≠ []) (blank : ∀ c ∈ gap, isBlank c = true)
      (ends : ∀ c ∈ more.head?, isBlank c = true) :
      Written host (address ++ gap ++ host ++ more)
  | resolver {more : List Char} (plain : ∀ c ∈ more, IsPlain c) :
      Written host ("address=/".toList ++ host ++ '/' :: more)
  | bare : Written host host
  | adblock {more : List Char} (plain : ∀ c ∈ more, IsPlain c) :
      Written host (['|', '|'] ++ host ++ '^' :: more)
  | url {scheme more : List Char} (letters : ∀ c ∈ scheme, c.isAlpha = true)
      (plain : ∀ c ∈ more, IsPlain c) :
      Written host ('|' :: scheme ++ "://".toList ++ host ++ '/' :: more)

namespace Blockable

theorem plain (h : Blockable host) {c : Char} (hc : c ∈ host) : IsPlain c := by
  rcases Host.isName_chars h.name hc with rfl | hlabel
  · decide
  · exact .of_isLabelChar hlabel

theorem unbroken (h : Blockable host) : ∀ c ∈ host, isBlank c = false := fun _ hc => (h.plain hc).1

/-- Marks that no name is made with. -/
theorem not_mem (h : Blockable host) {c : Char} (hc : c ∈ ['=', '|', '/', '^', '$', '#']) :
    c ∉ host := by
  intro hmem
  have hchar := Host.isName_chars h.name hmem
  revert hchar
  simp only [List.mem_cons, List.not_mem_nil, or_false] at hc
  rcases hc with rfl | rfl | rfl | rfl | rfl | rfl <;> decide

theorem normal (h : Blockable host) : Host.normal host = host := by
  have hnormal : Host.IsNormal host :=
    ⟨h.lower, ⟨fun c hc => h.unbroken c (List.mem_of_mem_head? hc),
      fun c hc => h.unbroken c (List.mem_of_mem_getLast? hc)⟩, h.noDot⟩
  refine (Host.normal_eq_iff hnormal).mpr ⟨[], host, [], [], ?_, h.lower, nofun, nofun, nofun⟩
  simp only [List.nil_append, List.append_nil]

/-- A name begins with a character of its first label. -/
theorem head (h : Blockable host) : ∃ c rest, host = c :: rest ∧ Host.isLabelChar c = true := by
  have hbare : Host.withoutRootDot host = host :=
    if_neg fun hlast => h.noDot '.' (beq_iff_eq.mp hlast) rfl
  have hname := h.name
  simp only [Host.isName, hbare, Bool.and_eq_true, List.all_eq_true] at hname
  obtain ⟨⟨⟨hne, -⟩, -⟩, hlabels⟩ := hname
  cases hhost : host with
  | nil =>
    rw [hhost] at hne
    cases hne
  | cons c rest =>
    refine ⟨c, rest, rfl, (Host.isName_chars h.name (hhost ▸ List.mem_cons_self)).resolve_left ?_⟩
    -- a dot there would leave an empty label before it
    rintro rfl
    rw [hhost, pieces_cons_mark rfl] at hlabels
    have := hlabels [] List.mem_cons_self
    cases this

/-- A candidate that begins with the host yields it, if the host ends there. -/
theorem candidateName (h : Blockable host) {more : List Char}
    (hmore : ∀ c ∈ more.head?, endsHost c = true) : candidateName? (host ++ more) = some host := by
  obtain ⟨c, rest, hhost, hc⟩ := h.head
  have hstart : (host ++ more).dropWhile (fun c => c == '.' || c == '|') = host ++ more := by
    rw [hhost, List.cons_append]
    refine List.dropWhile_cons_of_neg fun hlead => ?_
    rcases Bool.or_eq_true_iff.mp hlead with hdot | hbar
    · rw [beq_iff_eq.mp hdot] at hc
      cases hc
    · rw [beq_iff_eq.mp hbar] at hc
      cases hc
  have hend : (host ++ more).takeWhile (!endsHost ·) = host := by
    have hinside : ∀ c ∈ host, (!endsHost c) = true := by
      intro c hc
      rw [Bool.not_eq_true', endsHost, Bool.or_eq_false_iff, Bool.or_eq_false_iff]
      refine ⟨⟨?_, ?_⟩, ?_⟩ <;> refine beq_eq_false_iff_ne.mpr ?_ <;> rintro rfl <;>
        exact absurd hc (h.not_mem (by decide))
    rw [List.takeWhile_append_of_pos hinside]
    cases more with
    | nil => rw [List.takeWhile_nil, List.append_nil]
    | cons d more =>
      rw [List.takeWhile_cons_of_neg (by simp [hmore d rfl]), List.append_nil]
  have hallowed : host.any isForbidden = false := by
    refine List.any_eq_false.mpr fun c hc hforbidden => ?_
    have hchar := Host.isName_chars h.name hc
    simp only [isForbidden, List.contains_iff_mem, List.mem_cons, List.not_mem_nil,
      or_false] at hforbidden
    revert hchar
    rcases hforbidden with rfl | rfl | rfl | rfl | rfl <;> decide
  have hne : host.isEmpty = false := by rw [hhost]; rfl
  simp only [candidateName?, hstart, hend, hne, hallowed, Host.isName_isText h.name h.noDot,
    h.normal, h.name, Bool.or_self, Bool.false_eq_true, if_false, if_true]

theorem candidateName_self (h : Blockable host) : candidateName? host = some host := by
  have hend : ∀ c ∈ ([] : List Char).head?, endsHost c = true := nofun
  rw [← List.append_nil host, h.candidateName hend, List.append_nil]

end Blockable

/-! ### Lines of a hosts file -/

theorem classify_blocked {c : Char} (h : Blockable host) (hstart : (trim line).head? = some c)
    (hhash : c ≠ '#') (hmark : c ≠ '!')
    (hentry : blockEntry? redirects (trim line) = some (.blocked (String.ofList host))) :
    classify .block redirects line = some (.blocked (String.ofList host)) := by
  have hne : (trim line).isEmpty = false := by
    cases hline : trim line with
    | nil =>
      rw [hline] at hstart
      cases hstart
    | cons => rfl
  have haccepted : isAcceptable (.blocked (String.ofList host)) = true := by
    rw [isAcceptable, String.toList_ofList]
    exact h.name
  simp only [classify, hne, hstart, Option.some_beq_some, beq_eq_false_iff_ne.mpr hhash,
    beq_eq_false_iff_ne.mpr hmark, Bool.or_self, Bool.false_eq_true, if_false, hentry,
    Option.filter_some, haccepted, if_true]

/-- The first two words of a line decide, if they are a sinkhole and a host. -/
theorem classify_words (h : Blockable host) {address : List Char} {a : Address}
    (hread : Address.read? address = some a) (hsinkhole : a.isSinkhole = true)
    {more : List (List Char)} (hwords : words line = address :: host :: more) :
    classify .block redirects line = some (.blocked (String.ofList host)) := by
  obtain ⟨c, rest, rfl⟩ := List.exists_cons_of_ne_nil (Address.ne_nil_of_read? hread)
  have hstart : (trim line).head? = some c := by
    rw [head?_trim, hwords]
    rfl
  have hc := (Address.read?_chars hread c List.mem_cons_self).graphic
  have hhost : host.head? ≠ some '#' := fun hhash =>
    absurd (List.mem_of_mem_head? hhash) (h.not_mem (by decide))
  refine classify_blocked h hstart (by rintro rfl; exact absurd hc (by decide))
    (by rintro rfl; exact absurd hc (by decide)) ?_
  simp only [hostsFields?, blockEntry?, words_trim, hwords, beq_eq_false_iff_ne.mpr hhost,
    Bool.false_eq_true, if_false, hostsEntry?, h.normal, List.contains_iff_mem, h.free, hread,
    hsinkhole, if_true]

/-! ### Lines of one word -/

/-- The first form that has a candidate decides, if that yields a name. -/
theorem firstName_of_form {form : Form} {candidate : List Char}
    (hform : form.candidate? line = some candidate)
    (hyields : candidateName? candidate = some host)
    (hbefore : ∀ earlier ∈ Form.all.takeWhile (· != form), earlier.candidate? line = none) :
    firstName? line = some host := by
  cases form <;> simp_all [firstName?, Form.all]

theorem classify_word (h : Blockable host) {c : Char} (hstart : body.head? = some c)
    (hopens : Opens c) (hplain : ∀ d ∈ body, IsPlain d) (hnamed : firstName? body = some host)
    (hfront : ∀ d ∈ front, isBlank d = true) (hback : ∀ d ∈ back, isBlank d = true) :
    classify .block redirects (front ++ body ++ back) = some (.blocked (String.ofList host)) := by
  obtain ⟨rest, rfl⟩ := List.head?_eq_some_iff.mp hstart
  have htrim : trim (front ++ c :: rest ++ back) = c :: rest :=
    trim_padded hfront hback ⟨fun d hd => (hplain d (List.mem_of_mem_head? hd)).1,
      fun d hd => (hplain d (List.mem_of_mem_getLast? hd)).1⟩
  have hhash : '#' ∉ c :: rest := fun hhash => (hplain _ hhash).2 rfl
  have hfields : hostsFields? (c :: rest) = none := by
    rw [hostsFields?, words_of_word (List.cons_ne_nil c rest) fun d hd => (hplain d hd).1]
  have hmarks : elementMarks.any (holds · (c :: rest)) = false := by
    refine List.any_eq_false.mpr fun mark hmark => ?_
    rw [holds_eq_false (m := '#') (by revert mark; decide) hhash]
    exact Bool.false_ne_true
  have hkept : withoutComment (c :: rest) = c :: rest := by
    rw [withoutComment, if_neg (by simpa using hhash)]
  refine classify_blocked h (c := c) (by rw [htrim]; rfl) (hopens.ne (by decide))
    (hopens.ne (by decide)) ?_
  rw [htrim, blockEntry?, hfields]
  simp only [formEntry_of_opens hopens, hmarks, hkept, hnamed, Bool.false_eq_true, if_false,
    Option.map_some]

/-! ### All of them -/

namespace Written

theorem firstName_resolver (h : Blockable host) (more : List Char) :
    firstName? ("address=/".toList ++ host ++ '/' :: more) = some host := by
  have hcandidate : Form.candidate? .resolver ("address=/".toList ++ host ++ '/' :: more) =
      some host := by
    obtain ⟨c, rest, hhost, -⟩ := h.head
    have hfirst : (host ++ '/' :: more).takeWhile (· != '/') = host :=
      takeWhile_mark (h.not_mem (by decide)) more
    have hne : host.isEmpty = false := by rw [hhost]; rfl
    rw [Form.candidate?, List.append_assoc, after?_eq_some.mpr rfl]
    simp only [Option.bind_eq_bind, Option.bind_some, hfirst, hne, Bool.false_eq_true, if_false]
  refine firstName_of_form hcandidate h.candidateName_self fun earlier hearlier => ?_
  -- no form is tried earlier
  have hearlier : earlier ∈ ([] : List Form) := hearlier
  exact absurd hearlier List.not_mem_nil

theorem firstName_bare (h : Blockable host) : firstName? host = some host := by
  have hcandidate : Form.candidate? .bare host = some host := by
    have hbar : (host.head? == some '|') = false := beq_eq_false_iff_ne.mpr fun hbar =>
      h.not_mem (by decide) (List.mem_of_mem_head? hbar)
    have hkey : host.contains '=' = false := by simpa using h.not_mem (c := '=') (by decide)
    have hword : host.any isBlank = false := by simpa using h.unbroken
    simp only [Form.candidate?, hbar, hkey, hword, Bool.or_self, Bool.false_eq_true, if_false]
  refine firstName_of_form hcandidate h.candidateName_self fun earlier hearlier => ?_
  obtain rfl : earlier = .resolver := List.mem_singleton.mp hearlier
  rw [Form.candidate?, after?_eq_none (m := '=') (by decide) (h.not_mem (by decide))]
  rfl

theorem firstName_adblock (h : Blockable host) (more : List Char) :
    firstName? (['|', '|'] ++ host ++ '^' :: more) = some host := by
  have hcandidate : Form.candidate? .adblock (['|', '|'] ++ host ++ '^' :: more) =
      some (host ++ '^' :: more) := by
    rw [Form.candidate?, List.append_assoc]
    exact after?_eq_some.mpr rfl
  have hyields : candidateName? (host ++ '^' :: more) = some host :=
    h.candidateName fun c hc => by cases hc; rfl
  refine firstName_of_form hcandidate hyields fun earlier hearlier => ?_
  have hearlier : earlier ∈ [Form.resolver, .bare] := hearlier
  simp only [List.mem_cons, List.not_mem_nil, or_false] at hearlier
  rcases hearlier with rfl | rfl <;> rfl

theorem firstName_url (h : Blockable host) {scheme : List Char}
    (hletters : ∀ c ∈ scheme, c.isAlpha = true) (more : List Char) :
    firstName? ('|' :: scheme ++ "://".toList ++ host ++ '/' :: more) = some host := by
  have hcolon : ∀ c ∈ scheme, c ≠ ':' := by
    rintro c hc rfl
    exact absurd (hletters _ hc) (by decide)
  have hcandidate : Form.candidate? .url ('|' :: scheme ++ "://".toList ++ host ++ '/' :: more) =
      some (host ++ '/' :: more) := by
    simp only [Form.candidate?, List.cons_append, List.append_assoc]
    rw [show after? ['|'] ('|' :: (scheme ++ ("://".toList ++ (host ++ '/' :: more)))) =
      some (scheme ++ ("://".toList ++ (host ++ '/' :: more))) from after?_eq_some.mpr rfl]
    exact (afterFirst?_append hcolon _).trans (afterFirst?_mark _ _)
  have hyields : candidateName? (host ++ '/' :: more) = some host :=
    h.candidateName fun c hc => by cases hc; rfl
  refine firstName_of_form hcandidate hyields fun earlier hearlier => ?_
  have hearlier : earlier ∈ [Form.resolver, .bare, .adblock] := hearlier
  simp only [List.mem_cons, List.not_mem_nil, or_false] at hearlier
  rcases hearlier with rfl | rfl | rfl
  · rfl
  · rfl
  · -- one bar alone: a letter stands behind it, or the colon
    cases scheme with
    | nil => rfl
    | cons c scheme =>
      refine Option.eq_none_iff_forall_ne_some.mpr fun rest hrest => ?_
      have hbar : c = '|' :=
        (List.cons_eq_cons.mp (List.cons_eq_cons.mp (after?_eq_some.mp hrest)).2).1
      have hletter := hletters c List.mem_cons_self
      rw [hbar] at hletter
      cases hletter

theorem words_hosts (h : Blockable host) {address gap more : List Char} (hne : address ≠ [])
    (haddress : ∀ c ∈ address, isBlank c = false) (hapart : gap ≠ [])
    (hgap : ∀ c ∈ gap, isBlank c = true) (hends : ∀ c ∈ more.head?, isBlank c = true) :
    words (address ++ gap ++ host ++ more) = address :: host :: words more := by
  obtain ⟨c, rest, hhost, -⟩ := h.head
  have hgapped : ∀ c ∈ (gap ++ (host ++ more)).head?, isBlank c = true := by
    obtain ⟨d, gap, rfl⟩ := List.exists_cons_of_ne_nil hapart
    intro c hc
    cases hc
    exact hgap d List.mem_cons_self
  rw [List.append_assoc, List.append_assoc, words_word_append hne haddress hgapped,
    words_blank_append hgap,
    words_word_append (by rw [hhost]; exact List.cons_ne_nil c rest) h.unbroken hends]

end Written

/-- **A line that names a host in any of the ways blocks it**, whatever blanks are around the line
and whether or not the list may redirect. -/
theorem classify_written (h : Blockable host) (hbody : Written host body)
    (hfront : ∀ c ∈ front, isBlank c = true) (hback : ∀ c ∈ back, isBlank c = true)
    (redirects : Bool) :
    classify .block redirects (front ++ body ++ back) = some (.blocked (String.ofList host)) := by
  cases hbody with
  | @hosts address gap more a read sinkhole apart blank ends =>
    have haddress : ∀ c ∈ address, isBlank c = false := fun c hc =>
      have hc := (Address.read?_chars read c hc).graphic
      isBlank_of_graphic (by omega) (by omega)
    have hsinkhole : a.isSinkhole = true := by
      rcases sinkhole with rfl | rfl | rfl <;> rfl
    have hwords : words (front ++ (address ++ gap ++ host ++ more) ++ back) =
        address :: host :: words more := by
      rw [words_append_blank hback, words_blank_append hfront]
      exact Written.words_hosts h (Address.ne_nil_of_read? read) haddress apart blank ends
    exact classify_words h read hsinkhole hwords
  | @resolver more plain =>
    exact classify_word h (c := 'a') (by simp) (.inr (.inr rfl))
      (by simp only [List.forall_mem_append, List.forall_mem_cons]
          exact ⟨⟨.of_all (by decide), fun _ => h.plain⟩, by decide, plain⟩)
      (Written.firstName_resolver h more) hfront hback
  | bare =>
    obtain ⟨c, rest, hhost, hc⟩ := h.head
    exact classify_word h (by rw [hhost]; rfl) (.inr (.inr hc)) (fun _ => h.plain)
      (Written.firstName_bare h) hfront hback
  | @adblock more plain =>
    exact classify_word h (c := '|') rfl (.inl rfl)
      (by simp only [List.forall_mem_append, List.forall_mem_cons]
          exact ⟨⟨⟨by decide, by decide, nofun⟩, fun _ => h.plain⟩, by decide, plain⟩)
      (Written.firstName_adblock h more) hfront hback
  | @url scheme more letters plain =>
    have hscheme : ∀ c ∈ scheme, IsPlain c := fun c hc => .of_isAlpha (letters c hc)
    exact classify_word h (c := '|') rfl (.inl rfl)
      (by simp only [List.forall_mem_append, List.forall_mem_cons]
          exact ⟨⟨⟨⟨by decide, hscheme⟩, .of_all (by decide)⟩, fun _ => h.plain⟩, by decide, plain⟩)
      (Written.firstName_url h letters more) hfront hback

/-- One host in each of the ways. -/
theorem classify_written_assorted :
    classify .block true "\t::1 \tads.example.com www.example.com # both\r".toList =
        some (.blocked "ads.example.com") ∧
      classify .block false "address=/ads.example.com/::".toList =
        some (.blocked "ads.example.com") ∧
      classify .block false "  ads.example.com".toList = some (.blocked "ads.example.com") ∧
      classify .block true "||ads.example.com^$third-party".toList =
        some (.blocked "ads.example.com") ∧
      classify .block false "|https://ads.example.com/x?y ".toList =
        some (.blocked "ads.example.com") := by
  have h : Blockable "ads.example.com".toList := by
    have hlast : "ads.example.com".toList.getLast? = some 'm' := by decide +kernel
    refine ⟨by decide +kernel, by decide +kernel, fun c hc => ?_, by decide +kernel⟩
    rw [hlast] at hc
    cases hc
    decide
  have written (front : List Char) {body : List Char} (back : List Char) {line : String}
      {redirects : Bool} (hbody : Written "ads.example.com".toList body)
      (hfront : front.all isBlank = true) (hback : back.all isBlank = true)
      (hline : line.toList = front ++ body ++ back) :
      classify .block redirects line.toList = some (.blocked "ads.example.com") := by
    rw [hline, classify_written h hbody (List.all_eq_true.mp hfront) (List.all_eq_true.mp hback),
      String.ofList_toList]
  refine ⟨?_, ?_, ?_, ?_, ?_⟩
  · exact written ['\t'] ['\r']
      (@Written.hosts _ "::1".toList " \t".toList (' ' :: "www.example.com # both".toList) _
        (by decide +kernel) (.inr (.inr rfl)) (by decide) (List.all_eq_true.mp (by decide))
        fun _ hc => by cases hc; rfl)
      (by decide) (by decide) (by decide +kernel)
  · exact written [] [] (@Written.resolver _ "::".toList (.of_all (by decide))) rfl rfl
      (by decide +kernel)
  · exact written "  ".toList [] .bare (by decide) rfl (by decide +kernel)
  · exact written [] [] (@Written.adblock _ "$third-party".toList (.of_all (by decide))) rfl rfl
      (by decide +kernel)
  · exact written [] [' '] (@Written.url _ "https".toList "x?y".toList
      (List.all_eq_true.mp (by decide)) (.of_all (by decide))) rfl (by decide) (by decide +kernel)

end Sinkhole.Line
