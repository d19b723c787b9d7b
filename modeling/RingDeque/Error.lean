/-!
# Errors

What an operation refuses to do, by cause. An error is an answer: the operation reports it and
leaves the deque as it was. Numbers in an error are those of the refused request.
-/

namespace RingDeque

/-- Why an operation was refused. -/
inductive Error where
  /-- The index is not below the length, or for an insertion exceeds it. -/
  | indexOutOfBounds (index length : Nat)
  /-- A source with gaps had its first gap at `index`. -/
  | nullElement (index : Nat)
  /-- A buffer of `requested` slots cannot be had. -/
  | capacityOverflow (requested : Nat)
  /-- The deque changed behind a traversal, or is in use by an operation that excludes this one. -/
  | concurrentModification
  /-- The thread was interrupted before it got the lock. -/
  | cancelled
  /-- The deque is empty, or a traversal has ended. -/
  | noSuchElement
  /-- A cursor has no element that it returned last. -/
  | noCurrentElement
  deriving DecidableEq, Repr

namespace Error

/-- The sentence that tells a user what was refused. -/
def message : Error → String
  | indexOutOfBounds index length => s!"index {index} out of bounds for length {length}"
  | nullElement index => s!"null element at position {index}"
  | capacityOverflow requested => s!"deque too large: cannot allocate {requested} slots"
  | concurrentModification => "deque was structurally modified during traversal"
  | cancelled => "interrupted while waiting to acquire the deque lock"
  | noSuchElement => "no such element"
  | noCurrentElement => "no current element: call next or previous first"

/-- The word for the cause. -/
def name : Error → String
  | indexOutOfBounds .. => "IndexOutOfBounds"
  | nullElement .. => "NullElement"
  | capacityOverflow .. => "CapacityOverflow"
  | concurrentModification => "ConcurrentModification"
  | cancelled => "Cancelled"
  | noSuchElement => "NoSuchElement"
  | noCurrentElement => "NoCurrentElement"

/-- A conflict between two uses of the deque: the traversal can be tried again. -/
def isConflict : Error → Bool
  | concurrentModification => true
  | _ => false

/-- The operation gave way to an interruption. -/
def isCancelled : Error → Bool
  | cancelled => true
  | _ => false

end Error

end RingDeque
