import Sinkhole.Host.Pattern
import Sinkhole.Proofs.Host.Name

/-! What the table is matched with means what the pattern says.

`toLike` rewrites a host pattern for the general operator and `likeItems` reads the
result back into elements. `likeItems_toLike` says that no character of a pattern is
lost or changed on that way, so the operator decides `Matches`, the meaning of a
pattern (`itemsMatch_toLike`). The operator sees only so much of a text
(`compared`); `Covers` is the meaning on what it sees of both. That is all of them for
every pattern and host that passes the checks, and the operator has an answer for every
pattern that is not too long (`like_iff_matches`). -/
namespace Sinkhole.Host

/-- The element that one character of a host pattern is. -/
def itemOf (c : Char) : LikeItem :=
  if c = '*' then .stretch else if c = '?' then .one else .char c

theorem itemOf_char {c : Char} (hs : c ≠ '*') (ho : c ≠ '?') : itemOf c = .char c := by
  rw [itemOf, if_neg hs, if_neg ho]

/-! ### Reading a rewritten pattern -/

theorem likeItems_plain {c : Char} (rest : List Char) (hb : c ≠ '\\') (hp : c ≠ '%')
    (hu : c ≠ '_') : likeItems (c :: rest) = .char c :: likeItems rest := by
  rw [likeItems]
  · intro _ _ h
    exact absurd h hb
  · intro h
    exact absurd h hb
  · intro h
    exact absurd h hp
  · intro h
    exact absurd h hu

/-- One character is rewritten to what reads as its element, whatever follows. -/
theorem likeItems_likeChar (c : Char) (rest : List Char) :
    likeItems (likeChar c ++ rest) = itemOf c :: likeItems rest := by
  by_cases hs : c = '*'
  · subst hs
    rfl
  by_cases ho : c = '?'
  · subst ho
    rfl
  rw [itemOf_char hs ho]
  by_cases hspecial : c = '%' ∨ c = '_' ∨ c = '\\'
  · rcases hspecial with rfl | rfl | rfl <;> rfl
  · obtain ⟨hp, hu, hb⟩ : c ≠ '%' ∧ c ≠ '_' ∧ c ≠ '\\' := by
      simpa only [not_or] using hspecial
    have hc : likeChar c = [c] := by
      simp [likeChar, hs, ho, hp, hu, hb]
    rw [hc]
    exact likeItems_plain rest hb hp hu

/-- A rewritten pattern reads as the elements of the pattern, one a character. -/
theorem likeItems_toLike (p : List Char) : likeItems (toLike p) = p.map itemOf := by
  induction p with
  | nil => rfl
  | cons c p ih =>
    show likeItems (likeChar c ++ toLike p) = itemOf c :: p.map itemOf
    rw [likeItems_likeChar, ih]

theorem itemOf_injective : Function.Injective itemOf := by
  intro a b h
  by_cases hs : a = '*'
  · by_cases hs' : b = '*'
    · rw [hs, hs']
    · by_cases ho' : b = '?' <;> simp [itemOf, hs, hs', ho'] at h
  by_cases ho : a = '?'
  · by_cases hs' : b = '*'
    · simp [itemOf, ho, hs'] at h
    · by_cases ho' : b = '?'
      · rw [ho, ho']
      · simp [itemOf, ho, hs', ho'] at h
  rw [itemOf_char hs ho] at h
  by_cases hs' : b = '*'
  · simp [itemOf, hs'] at h
  by_cases ho' : b = '?'
  · simp [itemOf, ho'] at h
  rw [itemOf_char hs' ho'] at h
  injection h

/-- Rewriting makes no two patterns one. -/
theorem toLike_injective : Function.Injective toLike := by
  intro p q h
  have hitems : p.map itemOf = q.map itemOf := by
    rw [← likeItems_toLike, ← likeItems_toLike, h]
  exact itemOf_injective.list_map hitems

/-! ### The operator decides what a pattern means -/

theorem someTail_iff (p : List Char → Bool) (h : List Char) :
    someTail p h = true ↔ ∃ front back, h = front ++ back ∧ p back = true := by
  induction h with
  | nil =>
    constructor
    · intro hp
      exact ⟨[], [], rfl, hp⟩
    · rintro ⟨front, back, hcat, hp⟩
      obtain ⟨-, rfl⟩ := List.append_eq_nil_iff.mp hcat.symm
      exact hp
  | cons c h ih =>
    rw [someTail, Bool.or_eq_true, ih]
    constructor
    · rintro (hp | ⟨front, back, rfl, hp⟩)
      · exact ⟨[], c :: h, rfl, hp⟩
      · exact ⟨c :: front, back, rfl, hp⟩
    · rintro ⟨front, back, hcat, hp⟩
      cases front with
      | nil =>
        rw [List.nil_append] at hcat
        exact .inl (hcat ▸ hp)
      | cons d front =>
        obtain ⟨-, hcat⟩ := List.cons_eq_cons.mp hcat
        exact .inr ⟨front, back, hcat, hp⟩

theorem matches_nil {h : List Char} : Matches [] h ↔ h = [] := by
  constructor
  · intro hm
    cases hm
    rfl
  · rintro rfl
    exact .nil

theorem matches_stretch {p h : List Char} :
    Matches ('*' :: p) h ↔ ∃ front back, h = front ++ back ∧ Matches p back := by
  constructor
  · intro hm
    generalize hq : '*' :: p = q at hm
    cases hm with
    | nil => cases hq
    | @stretch _ back front hm =>
      cases hq
      exact ⟨front, back, rfl, hm⟩
    | one => cases hq
    | char hs => exact absurd (List.cons_eq_cons.mp hq).1.symm hs
  · rintro ⟨front, back, rfl, hm⟩
    exact .stretch hm

theorem matches_one {p h : List Char} :
    Matches ('?' :: p) h ↔ ∃ c rest, h = c :: rest ∧ Matches p rest := by
  constructor
  · intro hm
    generalize hq : '?' :: p = q at hm
    cases hm with
    | nil => cases hq
    | stretch => cases hq
    | @one _ rest c hm =>
      cases hq
      exact ⟨c, rest, rfl, hm⟩
    | char _ ho => exact absurd (List.cons_eq_cons.mp hq).1.symm ho
  · rintro ⟨c, rest, rfl, hm⟩
    exact .one c hm

theorem matches_char {a : Char} {p h : List Char} (hs : a ≠ '*') (ho : a ≠ '?') :
    Matches (a :: p) h ↔ ∃ c rest, h = c :: rest ∧ sameLetter a c = true ∧ Matches p rest := by
  constructor
  · intro hm
    generalize hq : a :: p = q at hm
    cases hm with
    | nil => cases hq
    | stretch => exact absurd (List.cons_eq_cons.mp hq).1 hs
    | one => exact absurd (List.cons_eq_cons.mp hq).1 ho
    | @char _ rest b c _ _ hc hm =>
      cases hq
      exact ⟨c, rest, rfl, hc, hm⟩
  · rintro ⟨c, rest, rfl, hc, hm⟩
    exact .char hs ho hc hm

/-- The elements of a pattern match a host exactly when the pattern does. -/
theorem itemsMatch_map_itemOf (p h : List Char) :
    itemsMatch (p.map itemOf) h = true ↔ Matches p h := by
  induction p generalizing h with
  | nil => rw [List.map_nil, itemsMatch, List.isEmpty_iff, matches_nil]
  | cons a p ih =>
    rw [List.map_cons]
    by_cases hs : a = '*'
    · subst hs
      show someTail (itemsMatch (p.map itemOf)) h = true ↔ _
      rw [someTail_iff, matches_stretch]
      simp only [ih]
    by_cases ho : a = '?'
    · subst ho
      show itemsMatch (.one :: p.map itemOf) h = true ↔ _
      rw [matches_one]
      cases h with
      | nil => simp [itemsMatch]
      | cons c h =>
        rw [itemsMatch, ih]
        constructor
        · intro hm
          exact ⟨c, h, rfl, hm⟩
        · rintro ⟨_, _, ⟨⟩, hm⟩
          exact hm
    rw [itemOf_char hs ho, matches_char hs ho]
    cases h with
    | nil => simp [itemsMatch]
    | cons c h =>
      rw [itemsMatch, Bool.and_eq_true, ih]
      constructor
      · rintro ⟨hc, hm⟩
        exact ⟨c, h, rfl, hc, hm⟩
      · rintro ⟨_, _, ⟨⟩, hc, hm⟩
        exact ⟨hc, hm⟩

theorem itemsMatch_toLike (p h : List Char) :
    itemsMatch (likeItems (toLike p)) h = true ↔ Matches p h := by
  rw [likeItems_toLike, itemsMatch_map_itemOf]

/-! ### What the operator sees of a text -/

/-- Whether a pattern matches a host, as far as the operator sees the two. -/
def Covers (pattern host : List Char) : Prop := Matches (compared pattern) (compared host)

theorem compared_cons (c : Char) (cs : List Char) :
    compared (c :: cs) = if c.toNat ≠ 0 then
      (if c.toNat = 0xFFFE || c.toNat = 0xFFFF then Char.ofNat 0xFFFD else c) :: compared cs
    else [] := by
  unfold compared
  rw [List.takeWhile_cons]
  by_cases hz : c.toNat = 0 <;> simp [hz]

/-- A character that the operator has a use for is seen as it is. -/
theorem compared_seen {c : Char} (cs : List Char) (hz : c.toNat ≠ 0) (he : c.toNat ≠ 0xFFFE)
    (hf : c.toNat ≠ 0xFFFF) : compared (c :: cs) = c :: compared cs := by
  rw [compared_cons, if_pos hz]
  simp [he, hf]

/-- It is the same to rewrite what is seen of a pattern and to see its rewriting. -/
theorem compared_toLike (p : List Char) : compared (toLike p) = toLike (compared p) := by
  induction p with
  | nil => rfl
  | cons c p ih =>
    show compared (likeChar c ++ toLike p) = _
    by_cases hwild : c = '*' ∨ c = '?' ∨ c = '%' ∨ c = '_' ∨ c = '\\'
    · -- what these become is cut off or replaced nowhere, so each is one computation
      rcases hwild with rfl | rfl | rfl | rfl | rfl
      all_goals
        rw [compared_seen p (by decide) (by decide) (by decide)]
        simp only [toLike, List.flatMap_cons]
        rw [← toLike, ← toLike, ← ih]
        rfl
    · obtain ⟨hs, ho, hp, hu, hb⟩ : c ≠ '*' ∧ c ≠ '?' ∧ c ≠ '%' ∧ c ≠ '_' ∧ c ≠ '\\' := by
        simpa only [not_or] using hwild
      have hc : likeChar c = [c] := by
        simp [likeChar, hs, ho, hp, hu, hb]
      rw [hc, List.singleton_append, compared_cons, compared_cons]
      by_cases hz : c.toNat = 0
      · simp [hz, toLike]
      · rw [if_pos hz, if_pos hz, ih]
        by_cases hn : (c.toNat = 0xFFFE || c.toNat = 0xFFFF) = true
        · rw [if_pos hn]
          rfl
        · rw [if_neg hn]
          show c :: toLike (compared p) = likeChar c ++ toLike (compared p)
          rw [hc, List.singleton_append]

/-- Matching with a rewritten pattern decides whether the pattern covers a host. -/
theorem isLike_toLike (pattern host : List Char) :
    isLike (toLike pattern) host = true ↔ Covers pattern host := by
  rw [isLike_eq, compared_toLike, itemsMatch_toLike, Covers]

/-- Whether the operator sees a character as it is. -/
def isSeen (c : Char) : Bool := c.toNat != 0 && c.toNat != 0xFFFE && c.toNat != 0xFFFF

theorem compared_eq_self {cs : List Char} (h : cs.all isSeen = true) : compared cs = cs := by
  induction cs with
  | nil => rfl
  | cons c cs ih =>
    rw [List.all_cons, Bool.and_eq_true] at h
    obtain ⟨hc, hcs⟩ := h
    simp only [isSeen, Bool.and_eq_true, bne_iff_ne] at hc
    obtain ⟨⟨hz, he⟩, hf⟩ := hc
    rw [compared_seen cs hz he hf, ih hcs]

theorem isPattern_seen {pattern : List Char} (h : isPattern pattern = true) :
    pattern.all isSeen = true := by
  refine List.all_eq_true.mpr fun c hc => ?_
  obtain ⟨hlow, hhigh⟩ := (isPattern_chars h hc).graphic
  simp only [isSeen, Bool.and_eq_true, bne_iff_ne]
  omega

/-! ### Patterns that are too long -/

theorem like_tooLong {pattern : List Char} (h : isTooLong pattern = true) (host : List Char) :
    like pattern host = none := by
  rw [like, if_pos h]

theorem like_short {pattern : List Char} (h : isTooLong pattern = false) (host : List Char) :
    like pattern host = some (isLike pattern host) := by
  rw [like, if_neg (Bool.eq_false_iff.mp h)]

/-- A pattern of stars alone. -/
def stars (n : Nat) : List Char := List.replicate n '*'

theorem toLike_stars (n : Nat) : toLike (stars n) = List.replicate n '%' := by
  induction n with
  | zero => rfl
  | succ n ih => exact congrArg (List.cons '%') ih

/-- A star is one byte. -/
theorem isTooLong_stars (n : Nat) :
    isTooLong (toLike (stars n)) = decide (longestPattern < n) := by
  have hbytes : ∀ bytes, (List.replicate n '%').foldl (fun bytes c => bytes + c.utf8Size) bytes =
      bytes + n := by
    induction n with
    | zero => exact fun _ => rfl
    | succ n ih =>
      intro bytes
      refine (ih (bytes + 1)).trans ?_
      omega
  rw [isTooLong, toLike_stars, hbytes, Nat.zero_add]

theorem matches_stars (n : Nat) (host : List Char) : Matches (stars (n + 1)) host := by
  have hnothing : Matches (stars n) [] := by
    induction n with
    | zero => exact .nil
    | succ n ih => exact @Matches.stretch _ _ [] ih
  have hall := @Matches.stretch _ _ host hnothing
  rwa [List.append_nil] at hall

/-! ### What a rewritten pattern matches -/

/-- **A rewritten pattern matches what the pattern itself does, in all that the operator sees of
the two texts, and a rewritten pattern that is too long is refused, whatever the host is.** The
operator sees all of a text without the three characters that it has no use for, and so of every
pattern and host that has passed the check. -/
theorem like_iff_matches (pattern host : List Char) :
    (isTooLong (toLike pattern) = true → like (toLike pattern) host = none) ∧
      (isTooLong (toLike pattern) = false → ∃ matched,
        like (toLike pattern) host = some matched ∧
        (matched = true ↔ Matches (compared pattern) (compared host)) ∧
        (pattern.all isSeen = true → host.all isSeen = true →
          (matched = true ↔ Matches pattern host)) ∧
        (isPattern pattern = true → isPattern host = true →
          (matched = true ↔ Matches pattern host))) := by
  have hseen : pattern.all isSeen = true → host.all isSeen = true →
      (isLike (toLike pattern) host = true ↔ Matches pattern host) := by
    intro hpattern hhost
    rw [isLike_toLike, Covers, compared_eq_self hpattern, compared_eq_self hhost]
  refine ⟨fun hlong => like_tooLong hlong host, fun hshort => ?_⟩
  exact ⟨_, like_short hshort host, isLike_toLike pattern host, hseen,
    fun hpattern hhost => hseen (isPattern_seen hpattern) (isPattern_seen hhost)⟩

/-- The marks of the operator are characters like others to a host pattern, next to wildcards and
apart from them, and no host can be matched with too many stars. -/
theorem like_iff_matches_marks :
    (Matches "*%\\?".toList "a_%\\_".toList ∧ ¬ Matches "a_*".toList "abc".toList) ∧
      Matches "*_ad?.example".toList "My_AD1.example".toList ∧
      like (toLike (stars 50001)) "ad.example".toList = none := by
  refine ⟨⟨?_, fun hm => ?_⟩, ?_, ?_⟩
  · obtain ⟨matched, hlike, -, hseen, -⟩ := (like_iff_matches "*%\\?".toList "a_%\\_".toList).2
      (by decide +kernel)
    have hmatched : like (toLike "*%\\?".toList) "a_%\\_".toList = some true := by decide +kernel
    refine (hseen (by decide +kernel) (by decide +kernel)).mp ?_
    exact Option.some.inj (hlike.symm.trans hmatched)
  · obtain ⟨matched, hlike, -, hseen, -⟩ := (like_iff_matches "a_*".toList "abc".toList).2
      (by decide +kernel)
    have hnot : like (toLike "a_*".toList) "abc".toList = some false := by decide +kernel
    have hmatched := (hseen (by decide +kernel) (by decide +kernel)).mpr hm
    rw [hlike, hmatched] at hnot
    cases hnot
  · obtain ⟨matched, hlike, -, -, hpattern⟩ :=
      (like_iff_matches "*_ad?.example".toList "My_AD1.example".toList).2 (by decide +kernel)
    have hmatched : like (toLike "*_ad?.example".toList) "My_AD1.example".toList = some true := by
      decide +kernel
    refine (hpattern (by decide +kernel) (by decide +kernel)).mp ?_
    exact Option.some.inj (hlike.symm.trans hmatched)
  · exact (like_iff_matches (stars 50001) "ad.example".toList).1 (by rw [isTooLong_stars]; rfl)

/-- A text that a pattern does not mean, but what stands before its zero is. -/
theorem not_matches_past_zero : ¬ Matches "a".toList "a\x00b".toList := by
  intro hm
  obtain ⟨c, rest, hhost, -, hm⟩ :=
    (matches_char (a := 'a') (p := []) (by decide) (by decide)).mp hm
  cases hhost
  cases matches_nil.mp hm

/-- A zero hides what is behind it: a pattern matches a host that it does not mean. And too many
stars match no host, though they mean all of them. -/
theorem like_past_zero :
    (like (toLike "a".toList) "a\x00b".toList = some true ∧
      ¬ Matches "a".toList "a\x00b".toList) ∧
    like (toLike (stars 50001)) "a".toList = none ∧ Matches (stars 50001) "a".toList :=
  ⟨⟨by decide +kernel, not_matches_past_zero⟩, like_tooLong (by rw [isTooLong_stars]; rfl) _,
    matches_stars 50000 _⟩

end Sinkhole.Host
