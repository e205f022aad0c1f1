import Sinkhole.Url.Reader
import Sinkhole.Proofs.Url.Percent

/-! What the reader of URLs makes of a text.

Whatever the text, a path behind a host holds only characters that a path keeps, there
is no query without a question mark, and where a scheme needs a host there is one
(`read?_made`). Whether a text can be read at all is settled where the path begins: what
stands behind `/repos/` makes no difference (`isSome_read?_append`). -/
namespace Sinkhole.Url

open Text

variable {special file : Bool} {scheme back cs ds : List Char} {u : Url}

/-! ### Paths -/

/-- Every character is one that a path keeps as it is. -/
def Kept (cs : List Char) : Prop := ∀ c ∈ cs, keepsInPath c = true

theorem Kept.mono (h : Kept cs) (hsub : ds ⊆ cs) : Kept ds := fun c hc => h c (hsub hc)

theorem Kept.append (h : Kept cs) (h' : Kept ds) : Kept (cs ++ ds) :=
  List.forall_mem_append.mpr ⟨h, h'⟩

theorem Kept.cons {c : Char} (hc : keepsInPath c = true) (h : Kept cs) : Kept (c :: cs) :=
  List.forall_mem_cons.mpr ⟨hc, h⟩

theorem kept_percentEncode (cs : List Char) : Kept (percentEncode keepsInPath cs) := by
  intro c hc
  rcases mem_percentEncode hc with hkeeps | rfl | ⟨n, hn, rfl⟩
  · exact hkeeps
  · decide
  · exact (by decide : ∀ n < 16, keepsInPath (hexDigit n) = true) n hn

theorem gathered_kept (file : Bool) (h : Kept back) (texts : List (List Char)) :
    Kept (gathered file back texts).1 ∧ Kept (gathered file back texts).2 := by
  unfold gathered
  refine List.foldlRecOn (motive := fun p : List Char × List Char => Kept p.1 ∧ Kept p.2) texts _
    ⟨h, nofun⟩ ?_
  rintro ⟨back, segment⟩ ⟨hback, hsegment⟩ text -
  dsimp only
  split
  · exact ⟨hback, hsegment⟩
  · split
    · exact ⟨(hsegment.mono (List.take_subset _ _)).append hback,
        (hsegment.mono (List.drop_subset _ _)).append
          ((kept_percentEncode text).cons (by decide))⟩
    · exact ⟨hback, hsegment.append (kept_percentEncode text)⟩

theorem withoutLast_subset (file : Bool) (back : List Char) : withoutLast file back ⊆ back := by
  unfold withoutLast
  dsimp only
  split
  · exact List.Subset.refl _
  · exact List.drop_subset _ _

theorem withoutSlash_subset (back : List Char) : withoutSlash back ⊆ back := by
  unfold withoutSlash
  split
  · exact List.tail_subset _
  · exact List.Subset.refl _

theorem Trace.append_kept {t : Trace} (h : Kept t.back) (segment : List Char) (slash : Bool) :
    Kept (t.append file segment slash).back := by
  obtain ⟨hback, hsegment⟩ := gathered_kept file h (pieces isLayout segment)
  have hclosed {cs : List Char} (hcs : Kept cs) : Kept (if slash then '/' :: cs else cs) := by
    split
    · exact hcs.cons (by decide)
    · exact hcs
  have hup := (hback.mono (withoutSlash_subset _)).mono (withoutLast_subset file _)
  unfold Trace.append
  dsimp only
  split
  · dsimp only
    split
    · exact hup
    · exact hclosed hup
  · split
    · dsimp only
      split
      · exact hback
      · exact hback.cons (by decide)
    · split
      · exact hclosed (((hsegment.mono (List.take_subset _ _)).append hback).cons (by decide))
      · exact hclosed ((hsegment.mono (List.reverse_subset.mpr (List.Subset.refl _))).append hback)

theorem Trace.appendAll_kept {t : Trace} (h : Kept t.back) (segments : List (List Char)) :
    Kept (t.appendAll file segments).back := by
  induction segments generalizing t with
  | nil => exact h
  | cons segment rest ih => exact ih (append_kept h segment _)

theorem tracePath_kept (special file : Bool) (h : Kept cs) (text : List Char) :
    Kept ((tracePath special file cs text).path file) := by
  have hback : Kept (tracePath special file cs text).back :=
    Trace.appendAll_kept (h.mono (List.reverse_subset.mpr (List.Subset.refl _))) _
  have hpath := hback.mono (List.reverse_subset.mpr (List.Subset.refl _))
  unfold Trace.path
  split
  · exact (hpath.mono (List.dropWhile_subset _)).cons (by decide)
  · exact hpath

theorem pathBehindHost_kept (special : Bool) (text : List Char) :
    Kept (pathBehindHost special text) := by
  have hnone : Kept [] := nofun
  have hslash : Kept ['/'] := hnone.cons (by decide)
  refine tracePath_kept special false ?_ _
  split
  · split
    · exact hslash
    · exact hnone
  · split
    · exact hslash
    · split
      · exact hnone
      · exact hslash

theorem splitCredentials_subset (cs : List Char) : (splitCredentials cs).2 ⊆ cs := by
  unfold splitCredentials
  split
  · exact List.reverse_subset.mpr
      (List.Subset.trans (List.takeWhile_subset _) (List.reverse_subset.mpr (List.Subset.refl _)))
  · exact List.Subset.refl _

theorem splitPort_subset (cs : List Char) : (splitPort cs).2.getD [] ⊆ cs := by
  unfold splitPort
  dsimp only
  split
  · rename_i c port hdrop
    refine List.Subset.trans (List.subset_cons_self c port) ?_
    rw [← hdrop]
    exact List.drop_subset _ _
  · exact List.nil_subset _

theorem tail_query (h : '?' ∉ cs) : (tail cs).query = none := by
  have hbody : '?' ∉ cs.takeWhile (· != '#') := fun hc => h (List.takeWhile_subset _ hc)
  have hpath : (cs.takeWhile (· != '#')).takeWhile (· != '?') = cs.takeWhile (· != '#') :=
    List.takeWhile_eq_self_iff.mpr fun c hc => bne_iff_ne.mpr fun hmark => hbody (hmark ▸ hc)
  unfold tail
  dsimp only
  rw [hpath, List.drop_length]

/-! ### Whole URLs -/

/-- A URL as a reader makes it of a text. -/
structure Made (cs : List Char) (u : Url) : Prop where
  kept : u.hostText?.isSome → Kept u.path
  query : '?' ∉ cs → u.query = none
  /-- Only the URL of a file leaves its host open where there has to be one. -/
  hosted : isSpecial u.scheme = true → u.isFile = false → u.hostText?.isSome

theorem Made.mono (h : Made cs u) (hsub : cs ⊆ ds) : Made ds u where
  kept := h.kept
  query := fun hnone => h.query fun hc => hnone (hsub hc)
  hosted := h.hosted

/-- A tail is all that a query comes from. -/
theorem made_withTail (hsub : cs ⊆ ds) (hpath : u.hostText?.isSome → Kept u.path)
    (hhost : isSpecial u.scheme = true → u.isFile = false → u.hostText?.isSome) :
    Made ds (withTail u (tail cs)) where
  kept := hpath
  query hnone := by
    rw [withTail, tail_query fun hc => hnone (hsub hc)]
    rfl
  hosted := hhost

/-- A host that can be read is not left open. -/
theorem site?_ne_unstated {site : Site} (h : site? cs = some site) : site ≠ Site.unstated := by
  rintro rfl
  unfold site? at h
  split at h
  · unfold bracketed? at h
    split at h
    · split at h
      · split at h <;> cases h
      · cases h
    · cases h
  · dsimp only at h
    split at h
    · cases h
    · rename_i hsound
      split at h
      · obtain ⟨address, -, h⟩ := Option.map_eq_some_iff.mp h
        cases h
      · injection h with h
        injection h with h
        simp [h] at hsound

theorem readSite?_made (h : readSite? scheme cs = some u) : Made cs u := by
  unfold readSite? at h
  dsimp only at h
  have hport : (splitPort (splitCredentials (cs.takeWhile
      (!endsHost (isSpecial scheme) ·))).2).2.getD [] ⊆ cs :=
    List.Subset.trans (List.Subset.trans (splitPort_subset _) (splitCredentials_subset _))
      (List.takeWhile_subset _)
  have hrest (n k : Nat) : ((splitPort (splitCredentials (cs.takeWhile
      (!endsHost (isSpecial scheme) ·))).2).2.getD []).drop n ++ cs.drop k ⊆ cs :=
    List.append_subset.mpr ⟨List.Subset.trans (List.drop_subset _ _) hport, List.drop_subset _ cs⟩
  split at h
  · cases h
  · split at h
    · obtain ⟨site, hsite, h⟩ := Option.bind_eq_some_iff.mp h
      obtain ⟨number, -, h⟩ := Option.bind_eq_some_iff.mp h
      injection h with h
      rw [← h]
      refine made_withTail (hrest _ _) (fun _ => pathBehindHost_kept _ _) fun _ _ => ?_
      simp [hostText?, host?, Option.filter, site?_ne_unstated hsite]
    · rename_i hspecial
      obtain ⟨site, -, h⟩ := Option.bind_eq_some_iff.mp h
      obtain ⟨number, -, h⟩ := Option.bind_eq_some_iff.mp h
      injection h with h
      rw [← h]
      exact made_withTail (hrest _ _) (fun _ => pathBehindHost_kept _ _)
        fun hs => absurd hs hspecial

theorem localFile_made (hfile : (scheme == "file".toList) = true) (hstart : Kept back)
    (hsub : cs ⊆ ds) : Made ds (localFile scheme back cs) :=
  made_withTail hsub (fun _ => tracePath_kept true true hstart _) fun _ hn =>
    absurd (hfile.symm.trans hn) (by decide)

theorem afterSlash?_subset (h : afterSlash? cs = some ds) : ds ⊆ cs := by
  unfold afterSlash? at h
  split at h
  · rename_i c rest hdrop
    split at h
    · injection h with h
      rw [← h]
      refine List.Subset.trans (List.subset_cons_self c rest) ?_
      rw [← hdrop]
      exact List.dropWhile_subset _
    · cases h
  · cases h

theorem readFile?_made (hfile : (scheme == "file".toList) = true)
    (h : readFile? scheme cs = some u) : Made cs u := by
  have hnone : Kept [] := nofun
  have hslash : Kept ['/'] := hnone.cons (by decide)
  unfold readFile? at h
  split at h
  · injection h with h
    exact h ▸ localFile_made hfile hslash (List.Subset.refl cs)
  · rename_i behindOne hone
    have hsub := afterSlash?_subset hone
    split at h
    · injection h with h
      exact h ▸ localFile_made hfile hnone (List.Subset.refl cs)
    · rename_i behindTwo htwo
      have hsub := List.Subset.trans (afterSlash?_subset htwo) hsub
      have hrest (n : Nat) : behindTwo.drop n ⊆ cs :=
        List.Subset.trans (List.drop_subset n behindTwo) hsub
      dsimp only at h
      split at h
      · injection h with h
        exact h ▸ localFile_made hfile hslash hsub
      · split at h
        · injection h with h
          exact h ▸ localFile_made hfile hslash (hrest _)
        · obtain ⟨site, -, h⟩ := Option.bind_eq_some_iff.mp h
          split at h
          · injection h with h
            exact h ▸ localFile_made hfile hslash (hrest _)
          · injection h with h
            rw [← h]
            exact made_withTail (hrest _) (fun _ => tracePath_kept true true hslash _)
              fun _ hn => absurd (hfile.symm.trans hn) (by decide)

theorem readPlain?_made (hspecial : ¬isSpecial scheme = true)
    (h : readPlain? scheme cs = some u) : Made cs u := by
  unfold readPlain? at h
  split at h
  · exact (readSite?_made h).mono (by simp)
  · injection h with h
    exact h ▸ made_withTail (List.Subset.refl cs) nofun fun hs => absurd hs hspecial

theorem inner_subset (cs : List Char) : inner cs ⊆ cs := by
  have hend : inner cs ⊆ cs.dropWhile fun c => c.toNat ≤ 0x20 :=
    List.reverse_subset.mpr
      (List.Subset.trans (List.dropWhile_subset _) (List.reverse_subset.mpr (List.Subset.refl _)))
  exact List.Subset.trans hend (List.dropWhile_subset _)

theorem scheme?_subset (h : scheme? cs = some (scheme, ds)) : ds ⊆ cs := by
  unfold scheme? at h
  dsimp only at h
  split at h
  · rename_i rest hdrop
    split at h
    · split at h
      · injection h with h
        injection h with _ h
        rw [← h]
        refine List.Subset.trans (List.subset_cons_self ':' rest) ?_
        rw [← hdrop]
        exact List.drop_subset _ _
      · cases h
    · cases h
  · cases h

theorem read?_made (h : read? cs = some u) : Made cs u := by
  obtain ⟨⟨scheme, rest⟩, hscheme, h⟩ := Option.bind_eq_some_iff.mp h
  have hunbroken : unbroken (inner cs) ⊆ inner cs := List.filter_sublist.subset
  have hinside : unbroken (inner cs) ⊆ cs := List.Subset.trans hunbroken (inner_subset cs)
  have hrest : rest ⊆ cs := List.Subset.trans (scheme?_subset hscheme) hinside
  dsimp only at h
  split at h
  · rename_i hfile
    refine (readFile?_made hfile h).mono ?_
    exact List.Subset.trans (List.drop_subset _ _)
      (List.Subset.trans (List.dropWhile_subset _) (inner_subset cs))
  · split at h
    · exact (readSite?_made h).mono (List.Subset.trans (List.dropWhile_subset _) hrest)
    · rename_i hspecial
      exact (readPlain?_made hspecial h).mono hrest

/-! ### Texts that can be read -/

theorem takeWhile_stop {p : Char → Bool} {c : Char} (hc : p c = false) (front rest : List Char) :
    (front ++ c :: rest).takeWhile p = front.takeWhile p := by
  induction front with
  | nil => exact List.takeWhile_cons_of_neg (by simp [hc])
  | cons d front ih =>
    rw [List.cons_append, List.takeWhile_cons, List.takeWhile_cons, ih]

theorem dropWhile_stop {p : Char → Bool} {c : Char} (hc : p c = false) (front rest : List Char) :
    (front ++ c :: rest).dropWhile p = front.dropWhile p ++ c :: rest := by
  induction front with
  | nil => exact List.dropWhile_cons_of_neg (by simp [hc])
  | cons d front ih =>
    rw [List.cons_append, List.dropWhile_cons, List.dropWhile_cons, ih]
    split <;> rfl

/-- What is made of two values does not say whether both are there. -/
theorem isSome_bind_bind {α β γ δ : Type} (a : Option α) (b : Option β) (f : α → β → γ)
    (g : α → β → δ) :
    (a.bind fun x => b.bind fun y => some (f x y)).isSome =
      (a.bind fun x => b.bind fun y => some (g x y)).isSome := by
  cases a <;> cases b <;> rfl

theorem isSome_readSite?_append (scheme front rest : List Char) :
    (readSite? scheme (front ++ '/' :: rest)).isSome =
      (readSite? scheme (front ++ ['/'])).isSome := by
  have hauthority (rest : List Char) : (front ++ '/' :: rest).takeWhile
      (!endsHost (isSpecial scheme) ·) = front.takeWhile (!endsHost (isSpecial scheme) ·) :=
    takeWhile_stop rfl front rest
  -- something stands behind the host, with either rest
  have hbehind (text rest : List Char) : (text ++ (front ++ '/' :: rest).drop
      (front.takeWhile (!endsHost (isSpecial scheme) ·)).length).isEmpty = false := by
    have hshort := (List.takeWhile_prefix (l := front) (!endsHost (isSpecial scheme) ·)).length_le
    rw [List.drop_append_of_le_length hshort]
    simp
  unfold readSite?
  simp only [hauthority, hbehind]
  split
  · rfl
  · split
    · exact isSome_bind_bind ..
    · exact isSome_bind_bind ..

theorem afterSlash?_stop {c : Char} (hlayout : isLayout c = false) (hslash : isSlash true c = false)
    (front : List Char) : (∀ rest, afterSlash? (front ++ c :: rest) = none) ∨
      ∃ front', ∀ rest, afterSlash? (front ++ c :: rest) = some (front' ++ c :: rest) := by
  unfold afterSlash?
  simp only [dropWhile_stop hlayout]
  cases front.dropWhile isLayout with
  | nil => exact .inl fun rest => by simp [hslash]
  | cons d front =>
    by_cases hd : isSlash true d = true
    · exact .inr ⟨front, fun rest => by simp [hd]⟩
    · exact .inl fun rest => by simp [hd]

theorem isSome_readFile?_append {c : Char} (hlayout : isLayout c = false)
    (hslash : isSlash true c = false) (scheme front word rest : List Char) :
    (readFile? scheme (front ++ c :: (word ++ '/' :: rest))).isSome =
      (readFile? scheme (front ++ c :: (word ++ ['/']))).isSome := by
  unfold readFile?
  rcases afterSlash?_stop hlayout hslash front with hnone | ⟨one, hone⟩
  · simp only [hnone]
    rfl
  · simp only [hone]
    rcases afterSlash?_stop hlayout hslash one with hnone | ⟨two, htwo⟩
    · simp only [hnone]
      rfl
    · have hplace (rest : List Char) : (two ++ c :: (word ++ '/' :: rest)).takeWhile
          (!endsHost true ·) = (two ++ c :: word).takeWhile (!endsHost true ·) := by
        rw [← List.cons_append, ← List.append_assoc]
        exact takeWhile_stop rfl _ rest
      simp only [htwo, hplace]
      split
      · rfl
      · split
        · rfl
        · cases site? (unbroken ((two ++ c :: word).takeWhile (!endsHost true ·))) with
          | none => rfl
          | some site =>
            show (if _ then _ else _ : Option Url).isSome = (if _ then _ else _ : Option Url).isSome
            split <;> rfl

theorem isSome_readPlain?_append (scheme : List Char) (a b : Char) (front rest : List Char) :
    (readPlain? scheme (a :: b :: front ++ '/' :: rest)).isSome =
      (readPlain? scheme (a :: b :: front ++ ['/'])).isSome := by
  by_cases hslashes : a = '/' ∧ b = '/'
  · obtain ⟨rfl, rfl⟩ := hslashes
    exact isSome_readSite?_append scheme front rest
  · have hplain (rest : List Char) : (readPlain? scheme (a :: b :: rest)).isSome = true := by
      unfold readPlain?
      split
      · rename_i heq
        simp only [List.cons.injEq] at heq
        exact absurd ⟨heq.1, heq.2.1⟩ hslashes
      · rfl
    exact (hplain _).trans (hplain _).symm

theorem scheme?_append (front rest : List Char) :
    scheme? (front ++ '/' :: rest) = (scheme? front).map fun p => (p.1, p.2 ++ '/' :: rest) := by
  have hname : (front ++ '/' :: rest).takeWhile isSchemeChar = front.takeWhile isSchemeChar :=
    takeWhile_stop rfl front rest
  have hshort := (List.takeWhile_prefix (l := front) isSchemeChar).length_le
  unfold scheme?
  simp only [hname, List.drop_append_of_le_length hshort]
  cases front.drop (front.takeWhile isSchemeChar).length with
  | nil => rfl
  | cons d behind =>
    by_cases hcolon : d = ':'
    · subst hcolon
      cases front.takeWhile isSchemeChar with
      | nil => rfl
      | cons c name =>
        cases hc : c.isAlpha <;> simp [hc]
    · simp only [List.cons_append]
      split
      · rename_i heq
        exact absurd (List.cons.inj heq).1 hcolon
      · split
        · rename_i heq
          exact absurd (List.cons.inj heq).1 hcolon
        · rfl

/-- No more than its front and its end is dropped from a text. -/
theorem inner_append {c : Char} (hc : 0x20 < c.toNat) (front : List Char) {rest : List Char}
    (hrest : ∀ d ∈ (c :: rest).getLast?, 0x20 < d.toNat) :
    inner (front ++ c :: rest) = front.dropWhile (·.toNat ≤ 0x20) ++ c :: rest := by
  unfold inner
  dsimp only
  rw [dropWhile_stop (by simpa using hc), dropEndWhile_self]
  intro d hd
  rw [List.getLast?_append_of_ne_nil _ (List.cons_ne_nil c rest)] at hd
  simpa using hrest d hd

/-- Behind a scheme stands a colon. -/
theorem colon_mem (h : scheme? (unbroken cs) = some (scheme, ds)) : ':' ∈ cs := by
  unfold scheme? at h
  dsimp only at h
  split at h
  · rename_i rest hdrop
    have hmem : ':' ∈ unbroken cs := List.drop_subset _ _ (hdrop ▸ List.mem_cons_self)
    exact (List.mem_filter.mp hmem).1
  · cases h

/-- What stands behind `/repos/` does not decide whether a text can be read. -/
theorem isSome_read?_append (front : List Char) : ∃ good, ∀ rest : List Char,
    (∀ d ∈ rest.getLast?, 0x20 < d.toNat) →
    (read? (front ++ "/repos/".toList ++ rest)).isSome = good := by
  have hinner {rest : List Char} (h : ∀ d ∈ rest.getLast?, 0x20 < d.toNat) :
      inner (front ++ "/repos/".toList ++ rest) =
        front.dropWhile (·.toNat ≤ 0x20) ++ '/' :: ("repos/".toList ++ rest) := by
    rw [List.append_assoc]
    refine inner_append (by decide) front ?_
    cases rest with
    | nil =>
      rintro d ⟨⟩
      decide
    | cons d rest => simpa using h
  generalize front.dropWhile (·.toNat ≤ 0x20) = inside at hinner
  have hunbroken (rest : List Char) : unbroken (inside ++ '/' :: ("repos/".toList ++ rest)) =
      unbroken inside ++ '/' :: ("repos/".toList ++ unbroken rest) := by
    rw [unbroken, List.filter_append]
    rfl
  have hread {rest : List Char} (h : ∀ d ∈ rest.getLast?, 0x20 < d.toNat) :
      read? (front ++ "/repos/".toList ++ rest) = (scheme? (unbroken inside)).bind fun p =>
        if p.1 == "file".toList then
          readFile? p.1 (((inside ++ '/' :: ("repos/".toList ++ rest)).dropWhile (· != ':')).drop 1)
        else if isSpecial p.1 then
          readSite? p.1
            ((p.2 ++ '/' :: ("repos/".toList ++ unbroken rest)).dropWhile (isSlash true))
        else readPlain? p.1 (p.2 ++ '/' :: ("repos/".toList ++ unbroken rest)) := by
    unfold read?
    simp only [hinner h, hunbroken, scheme?_append]
    cases scheme? (unbroken inside) <;> rfl
  cases hscheme : scheme? (unbroken inside) with
  | none => exact ⟨false, fun rest h => by rw [hread h, hscheme]; rfl⟩
  | some p =>
    obtain ⟨scheme, behind⟩ := p
    simp only [hscheme, Option.bind_some] at hread
    by_cases hfile : (scheme == "file".toList) = true
    · obtain ⟨before, after, rfl, hbefore⟩ := List.eq_append_cons_of_mem (colon_mem hscheme)
      have hbehind (rest : List Char) :
          ((before ++ ':' :: after ++ '/' :: ("repos/".toList ++ rest)).dropWhile
            (· != ':')).drop 1 =
          (after ++ ['/']) ++ 'r' :: ("epos".toList ++ '/' :: rest) := by
        have hinside : ∀ c ∈ before, (c != ':') = true := fun c hc =>
          bne_iff_ne.mpr fun hmark => hbefore (hmark ▸ hc)
        rw [List.append_assoc, List.dropWhile_append_of_pos hinside, List.append_assoc]
        rfl
      refine ⟨(readFile? scheme ((after ++ ['/']) ++ 'r' :: ("epos".toList ++ ['/']))).isSome,
        fun rest h => ?_⟩
      rw [hread h, if_pos hfile, hbehind]
      exact isSome_readFile?_append rfl rfl scheme _ _ rest
    · simp only [if_neg hfile] at hread
      by_cases hspecial : isSpecial scheme = true
      · have hbehind (rest : List Char) : (behind ++ '/' :: ("repos/".toList ++ rest)).dropWhile
            (isSlash true) = ((behind ++ ['/']).dropWhile (isSlash true) ++ "repos".toList) ++
              '/' :: rest := by
          rw [← List.singleton_append, ← List.append_assoc, List.append_assoc _ _ ('/' :: rest)]
          exact dropWhile_stop rfl (behind ++ ['/']) _
        refine ⟨(readSite? scheme (((behind ++ ['/']).dropWhile (isSlash true) ++ "repos".toList) ++
          ['/'])).isSome, fun rest h => ?_⟩
        rw [hread h, if_pos hspecial, hbehind]
        exact isSome_readSite?_append scheme _ _
      · obtain ⟨a, b, more, hmore⟩ : ∃ a b more, behind ++ "/repos".toList = a :: b :: more := by
          match behind with
          | [] => exact ⟨_, _, _, rfl⟩
          | [a] => exact ⟨_, _, _, rfl⟩
          | a :: b :: more => exact ⟨_, _, _, rfl⟩
        have hbehind (rest : List Char) : behind ++ '/' :: ("repos/".toList ++ rest) =
            a :: b :: more ++ '/' :: rest := by
          rw [← hmore, List.append_assoc]
          rfl
        refine ⟨(readPlain? scheme (a :: b :: more ++ ['/'])).isSome, fun rest h => ?_⟩
        rw [hread h, if_neg hspecial, hbehind]
        exact isSome_readPlain?_append scheme a b more _

end Sinkhole.Url
