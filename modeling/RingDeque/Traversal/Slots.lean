import RingDeque.Deque.Search
import RingDeque.Traversal.Basic

/-!
# Writing to the elements

A `SlotTraversal` yields the slots of the elements instead of the elements, so that one may write to
each of them. It walks over two legs: the slots up to the end of the buffer and, if the deque wraps,
those from its beginning on. From the back it uses up the second leg first.
-/

namespace RingDeque

/-- The slots of one leg, from `start` up to `stop`. -/
structure Leg where
  start : Nat
  stop : Nat
  deriving DecidableEq, Repr

namespace Leg

/-- The number of slots. -/
def length (leg : Leg) : Nat :=
  leg.stop - leg.start

/-- Yield the first slot. -/
def next (leg : Leg) : Option Nat × Leg :=
  if leg.start < leg.stop then
    (some leg.start, { leg with start := leg.start + 1 })
  else
    (none, leg)

/-- Yield the last slot. -/
def nextBack (leg : Leg) : Option Nat × Leg :=
  if leg.start < leg.stop then
    (some (leg.stop - 1), { leg with stop := leg.stop - 1 })
  else
    (none, leg)

end Leg

/-- The slots of two legs. -/
structure SlotTraversal where
  first : Leg
  second : Leg
  deriving DecidableEq, Repr

namespace SlotTraversal

/-- Yield the slot at the front. -/
def next (it : SlotTraversal) : Option Nat × SlotTraversal :=
  match it.first.next with
  | (some p, first) => (some p, { it with first := first })
  | (none, _) => let (p, second) := it.second.next; (p, { it with second := second })

/-- Yield the slot at the back. -/
def nextBack (it : SlotTraversal) : Option Nat × SlotTraversal :=
  match it.second.nextBack with
  | (some p, second) => (some p, { it with second := second })
  | (none, _) => let (p, first) := it.first.nextBack; (p, { it with first := first })

/-- The number of slots that are left. -/
def remaining (it : SlotTraversal) : Nat :=
  it.first.length + it.second.length

instance : Traversal SlotTraversal Nat where
  next := next
  nextBack := nextBack
  remaining := remaining
  nth := Traversal.skip next
  nthBack := Traversal.skip nextBack

end SlotTraversal

/-- The slots of the elements, from front to back. -/
def Deque.slotTraversal {α : Type u} (d : Deque α) : SlotTraversal :=
  if d.head ≤ d.tail then
    ⟨⟨d.head, d.tail⟩, ⟨0, 0⟩⟩
  else
    ⟨⟨d.head, d.slotCount⟩, ⟨0, d.tail⟩⟩

end RingDeque
