/-! Classes of characters that are given as ranges of their codes.

A class is a list of first and last codes in ascending order, with gaps between them. -/
namespace Sinkhole.Text

/-- Whether a character is in one of the ranges. -/
def isWithin (ranges : List (Nat × Nat)) (c : Char) : Bool :=
  ranges.any fun (first, last) => first ≤ c.toNat && c.toNat ≤ last

end Sinkhole.Text
