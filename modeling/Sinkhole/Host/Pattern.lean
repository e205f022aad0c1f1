import Sinkhole.Text.Blank

/-! Matching hosts against allow patterns.

`Matches` says what a pattern means: `*` stands for any stretch of characters, `?`
for exactly one, everything else for itself up to the case of ASCII letters. The
table is matched with the general `LIKE` operator instead, for which `toLike`
rewrites the pattern: `%` and `_` are its wildcards, and a backslash makes the
character behind it stand for itself. The operator takes no pattern of more than
`longestPattern` bytes, whatever the host is. -/
namespace Sinkhole.Host

def sameLetter (a b : Char) : Bool := a.toLower == b.toLower

/-- What a host pattern matches. -/
inductive Matches : List Char → List Char → Prop where
  | nil : Matches [] []
  | stretch {p h h' : List Char} : Matches p h → Matches ('*' :: p) (h' ++ h)
  | one {p h : List Char} (c : Char) : Matches p h → Matches ('?' :: p) (c :: h)
  | char {p h : List Char} {a c : Char} : a ≠ '*' → a ≠ '?' → sameLetter a c = true →
      Matches p h → Matches (a :: p) (c :: h)

/-- One element of a `LIKE` pattern. -/
inductive LikeItem where
  | stretch
  | one
  | char (c : Char)
  deriving DecidableEq, Repr

/-- The elements a `LIKE` pattern with a backslash as its escape is made of; an escape at
the very end stands for nothing. -/
def likeItems : List Char → List LikeItem
  | [] => []
  | '\\' :: c :: rest => .char c :: likeItems rest
  | '\\' :: [] => []
  | '%' :: rest => .stretch :: likeItems rest
  | '_' :: rest => .one :: likeItems rest
  | c :: rest => .char c :: likeItems rest

/-- Whether some tail of `h`, `h` itself included, satisfies `p`. -/
def someTail (p : List Char → Bool) : List Char → Bool
  | [] => p []
  | c :: h => p (c :: h) || someTail p h

/-- Whether the elements match all of a host. -/
def itemsMatch : List LikeItem → List Char → Bool
  | [], h => h.isEmpty
  | .stretch :: items, h => someTail (itemsMatch items) h
  | .one :: items, h =>
    match h with
    | [] => false
    | _ :: h => itemsMatch items h
  | .char a :: items, h =>
    match h with
    | [] => false
    | c :: h => sameLetter a c && itemsMatch items h

/-- What `p` says of each tail of `h`, `h` itself first. -/
def atTails (p : List Char → Bool) : List Char → List Bool
  | [] => [p []]
  | c :: h => p (c :: h) :: atTails p h

/-- Whether something from each place on is true. -/
def someOnward : List Bool → List Bool
  | [] => []
  | b :: bs =>
    let onward := someOnward bs
    (b || onward.headD false) :: onward

/-- For each tail of a host, whether it starts with a character `p` takes and what is known of
the tail behind that one is true. -/
def stepOver (p : Char → Bool) : List Char → List Bool → List Bool
  | c :: h, _ :: known => (p c && known.headD false) :: stepOver p h known
  | _, _ => [false]

/-- Whether the elements match each tail of a host, found from the last element back, so that
no tail is tried twice. -/
def tailMatches : List LikeItem → List Char → List Bool
  | [], h => atTails List.isEmpty h
  | .stretch :: items, h => someOnward (tailMatches items h)
  | .one :: items, h => stepOver (fun _ => true) h (tailMatches items h)
  | .char a :: items, h => stepOver (sameLetter a) h (tailMatches items h)

theorem headD_atTails (p : List Char → Bool) (h : List Char) :
    (atTails p h).headD false = p h := by
  cases h <;> rfl

theorem someOnward_atTails (p : List Char → Bool) (h : List Char) :
    someOnward (atTails p h) = atTails (someTail p) h := by
  induction h with
  | nil => simp [atTails, someOnward, someTail]
  | cons c h ih => simp only [atTails, someOnward, ih, headD_atTails, someTail]

theorem stepOver_atTails (p : Char → Bool) (q r : List Char → Bool) (nil : r [] = false)
    (cons : ∀ c h, r (c :: h) = (p c && q h)) (h : List Char) :
    stepOver p h (atTails q h) = atTails r h := by
  induction h with
  | nil => simp [atTails, stepOver, nil]
  | cons c h ih => simp only [atTails, stepOver, ih, headD_atTails, cons]

/-- All tails at once are matched as each one is alone. -/
theorem tailMatches_eq (items : List LikeItem) (h : List Char) :
    tailMatches items h = atTails (itemsMatch items) h := by
  induction items with
  | nil =>
    have : itemsMatch [] = List.isEmpty := by funext h; simp [itemsMatch]
    simp [tailMatches, this]
  | cons item items ih =>
    cases item with
    | stretch =>
      have : itemsMatch (.stretch :: items) = someTail (itemsMatch items) := by
        funext h; simp [itemsMatch]
      simp [tailMatches, ih, someOnward_atTails, this]
    | one =>
      simp only [tailMatches, ih]
      exact stepOver_atTails _ _ _ (by simp [itemsMatch]) (by simp [itemsMatch]) h
    | char a =>
      simp only [tailMatches, ih]
      exact stepOver_atTails _ _ _ (by simp [itemsMatch]) (by simp [itemsMatch]) h

/-- What of a text `LIKE` looks at: all that stands before a zero. The two codes at the end of
the plane that no character has count as the character that stands for an unknown one. -/
def compared (cs : List Char) : List Char :=
  (cs.takeWhile (·.toNat ≠ 0)).map fun c =>
    if c.toNat = 0xFFFE || c.toNat = 0xFFFF then Char.ofNat 0xFFFD else c

/-- Whether a `LIKE` pattern matches a host. -/
def isLike (pattern host : List Char) : Bool :=
  (tailMatches (likeItems (compared pattern)) (compared host)).headD false

theorem isLike_eq (pattern host : List Char) :
    isLike pattern host = itemsMatch (likeItems (compared pattern)) (compared host) := by
  rw [isLike, tailMatches_eq, headD_atTails]

/-- The number of bytes that the longest pattern has that `LIKE` takes. -/
def longestPattern : Nat := 50000

/-- Whether a `LIKE` pattern is too long; its bytes count, past a zero as well. -/
def isTooLong (pattern : List Char) : Bool :=
  decide (longestPattern < pattern.foldl (fun bytes c => bytes + c.utf8Size) 0)

/-- `host LIKE pattern ESCAPE '\'`; there is no answer for a pattern that is too long. -/
def like (pattern host : List Char) : Option Bool :=
  if isTooLong pattern then none else some (isLike pattern host)

/-- One character of a host pattern as a `LIKE` pattern writes it. -/
def likeChar (c : Char) : List Char :=
  if c = '*' then ['%']
  else if c = '?' then ['_']
  else if c = '%' || c = '_' || c = '\\' then ['\\', c]
  else [c]

/-- The `LIKE` pattern that matches what a host pattern matches. -/
def toLike (pattern : List Char) : List Char := pattern.flatMap likeChar

/-- `toLike` on texts. -/
def likePattern (pattern : String) : String := String.ofList (toLike pattern.toList)

end Sinkhole.Host
