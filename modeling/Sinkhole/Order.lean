/-! Putting things in order.

`sortBy` sorts by insertion and is stable: elements of which each may stand before the
other stay as they stood. -/
namespace Sinkhole

/-- `x` put before the first element that it may stand before. -/
def insertBy {α : Type} (le : α → α → Bool) (x : α) : List α → List α
  | [] => [x]
  | y :: ys => if le x y then x :: y :: ys else y :: insertBy le x ys

/-- The elements in order. -/
def sortBy {α : Type} (le : α → α → Bool) (xs : List α) : List α := xs.foldr (insertBy le) []

end Sinkhole
