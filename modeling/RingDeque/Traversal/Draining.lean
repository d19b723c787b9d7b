import RingDeque.Deque.Ends
import RingDeque.Traversal.Basic

/-!
# Taking the elements out

A `Draining` is a deque that is being emptied: it yields an element by removing it from its end.
-/

namespace RingDeque

/-- A deque that gives up its elements. -/
structure Draining (α : Type u) where
  deque : Deque α

instance {α : Type u} : Traversal (Draining α) α where
  next it := let (x, d) := it.deque.popFront; (x, ⟨d⟩)
  nextBack it := let (x, d) := it.deque.popBack; (x, ⟨d⟩)
  remaining it := it.deque.length
  nth := Traversal.skip fun it => let (x, d) := it.deque.popFront; (x, ⟨d⟩)
  nthBack := Traversal.skip fun it => let (x, d) := it.deque.popBack; (x, ⟨d⟩)

/-- Give up the elements of `d`. -/
def Deque.draining {α : Type u} (d : Deque α) : Draining α :=
  ⟨d⟩

end RingDeque
