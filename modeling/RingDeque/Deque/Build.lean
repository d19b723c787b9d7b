import RingDeque.Deque.Sort

/-!
# Making a deque

From nothing, from a list, or from a source with gaps. A deque made from elements has exactly the
slots it needs.
-/

namespace RingDeque.Deque

variable {α : Type u}

/-- The deque of the elements of `xs`; no room is a fault. -/
def ofList (a : Allocator) (xs : List α) : Except Fault (Deque α) :=
  match (withCapacity a xs.length).addAll a (.ofList xs) with
  | (.ok _, d) => .ok d
  | (.error fault, _) => .error fault

/-- The elements of a source with gaps, or the position of the first gap. -/
def withoutGaps (xs : List (Option α)) : Except Error (List α) :=
  match xs.findIdx? Option.isNone with
  | some index => .error (.nullElement index)
  | none => .ok (xs.filterMap id)

/-- The deque of the elements of a source that must have no gap. -/
def tryOfOptions (a : Allocator) (xs : List (Option α)) : Except Error (Deque α) :=
  match withoutGaps xs with
  | .error e => .error e
  | .ok xs =>
    match (withCapacity a xs.length).insertRange a 0 xs with
    | (.ok _, d) => .ok d
    | (.error e, _) => .error e

end RingDeque.Deque
