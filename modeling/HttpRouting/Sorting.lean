/-!
Stable sorting by insertion, removal of neighbouring repetitions, and the first least element.
A new element moves towards the front only past elements that it is strictly before, so elements that
the comparison ties keep their order.  Where the comparison orders the elements of a list, every stable
sort makes the same list of them.  Where it does not, sorts differ, and the order here is the one of a
sort by insertion, as it is usual for lists of up to twenty elements only.
-/

set_option autoImplicit false
set_option relaxedAutoImplicit false

namespace HttpRouting.Sorting

variable {α : Type}

/-- Put an element behind the last element it is not strictly before; the list is written from
its end, so the walk starts at the element's right neighbour. -/
def insertFromEnd (order : α → α → Ordering) (x : α) : List α → List α
  | [] => [x]
  | y :: before => if order x y = .lt then y :: insertFromEnd order x before else x :: y :: before

/-- The elements in order, equal ones as they stood. -/
def sortBy (order : α → α → Ordering) (items : List α) : List α :=
  (items.foldl (fun sorted x => insertFromEnd order x sorted) []).reverse

/-- Drop every element that equals the one kept before it. -/
def dropRepeats [BEq α] : List α → List α
  | [] => []
  | x :: rest =>
    match dropRepeats rest with
    | [] => [x]
    | y :: kept => if x == y then x :: kept else x :: y :: kept

/-- The first element that no later element is strictly before. -/
def firstLeast? (order : α → α → Ordering) : List α → Option α
  | [] => none
  | x :: rest => some (rest.foldl (fun best y => if order y best = .lt then y else best) x)

end HttpRouting.Sorting
