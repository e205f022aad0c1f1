/-! Blank characters and what is done at them.

List lines, header values and typed-in names are all trimmed and split at the
characters with the Unicode property White_Space. That set is larger than the
ASCII one (it has the no-break space and the ideographic space) and smaller than
"looks empty" (it lacks the byte order mark and the zero-width space), and both
differences decide whether a line is a list entry. -/
namespace Sinkhole.Text

/-- The characters with the property White_Space. -/
def isBlank (c : Char) : Bool :=
  let n := c.toNat
  (9 ≤ n && n ≤ 13) || n == 0x20 || n == 0x85 || n == 0xA0 || n == 0x1680 ||
    (0x2000 ≤ n && n ≤ 0x200A) || n == 0x2028 || n == 0x2029 || n == 0x202F || n == 0x205F ||
    n == 0x3000

theorem isBlank_of_isWhitespace {c : Char} (h : c.isWhitespace = true) : isBlank c = true := by
  simp only [Char.isWhitespace, Bool.or_eq_true, decide_eq_true_eq] at h
  rcases h with ((h | h) | h) | h <;> subst h <;> decide

def trimStart (cs : List Char) : List Char := cs.dropWhile isBlank

/-- `cs` without the longest tail of characters that satisfy `p`. -/
def dropEndWhile (p : Char → Bool) (cs : List Char) : List Char :=
  (cs.reverse.dropWhile p).reverse

def trimEnd (cs : List Char) : List Char := dropEndWhile isBlank cs

def trim (cs : List Char) : List Char := trimEnd (trimStart cs)

/-- `trim` on texts. -/
def trimmed (s : String) : String := String.ofList (trim s.toList)

/-- The pieces of a text between the characters that satisfy `p`; always at least one. -/
def pieces (p : Char → Bool) (cs : List Char) : List (List Char) :=
  cs.foldr (fun c acc =>
    if p c then [] :: acc
    else match acc with
      | [] => [[c]]
      | w :: ws => (c :: w) :: ws) [[]]

/-- The non-empty pieces between blanks. -/
def words (cs : List Char) : List (List Char) :=
  (pieces isBlank cs).filter (fun w => !w.isEmpty)

/-- What is left of `cs` after `lead`, if `cs` starts with it. -/
def after? : (lead cs : List Char) → Option (List Char)
  | [], cs => some cs
  | _ :: _, [] => none
  | l :: ls, c :: cs => if l = c then after? ls cs else none

/-- The text behind the first place where `mark` stands. -/
def afterFirst? (mark : List Char) : List Char → Option (List Char)
  | [] => after? mark []
  | c :: cs =>
    match after? mark (c :: cs) with
    | some rest => some rest
    | none => afterFirst? mark cs

/-- Whether `mark` stands somewhere in `cs`. -/
def holds (mark cs : List Char) : Bool := (afterFirst? mark cs).isSome

/-- ASCII letters in lower case, all else as it is. -/
def lower (cs : List Char) : List Char := cs.map Char.toLower

/-- `text` repeated `n` times. -/
def repeated (n : Nat) (c : Char) : String := String.ofList (List.replicate n c)

/-- `text` with blanks after it up to `width` characters. -/
def padEnd (width : Nat) (text : String) : String :=
  text ++ repeated (width - text.length) ' '

/-- `text` with `fill` before it up to `width` characters. -/
def padStart (width : Nat) (fill : Char) (text : String) : String :=
  repeated (width - text.length) fill ++ text

end Sinkhole.Text
