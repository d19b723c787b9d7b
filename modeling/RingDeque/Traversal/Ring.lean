import RingDeque.Deque.Basic
import RingDeque.Traversal.Basic

/-!
# Reading the elements

A `RingTraversal` remembers a slot and how many elements follow from there. It jumps over any number
of elements at once, and it splits into two traversals of neighbouring runs, which is how the
elements are shared out among workers. `SplitTree` describes a whole division of labour.
-/

namespace RingDeque

/-- The elements of a run of slots. -/
structure RingTraversal (α : Type u) where
  slots : Slots α
  /-- The slot of the first element that is left. -/
  front : Nat
  remaining : Nat

namespace RingTraversal

variable {α : Type u}

/-- Yield the element at the front. -/
def nextOnWords (it : RingTraversal α) : Calculation (Option α × RingTraversal α) :=
  if it.remaining = 0 then
    .result (none, it)
  else
    (Circle.nextOnWords it.front it.slots.size).bind fun front =>
    .sub it.remaining 1 fun remaining =>
    .result (it.slots.at? it.front, { it with front := front, remaining := remaining })

@[inherit_doc nextOnWords]
def next (it : RingTraversal α) : Option α × RingTraversal α :=
  it.nextOnWords.exact

theorem next_eq (it : RingTraversal α) :
    it.next =
      if it.remaining = 0 then
        (none, it)
      else
        (it.slots.at? it.front, { it with
          front := Circle.next it.front it.slots.size
          remaining := it.remaining - 1 }) := by
  refine (Calculation.exact_ite ..).trans (ite_congr rfl (fun _ => rfl) fun _ => ?_)
  exact Calculation.exact_bind ..

/-- Yield the element at the back. -/
def nextBackOnWords (it : RingTraversal α) : Calculation (Option α × RingTraversal α) :=
  if it.remaining = 0 then
    .result (none, it)
  else
    .sub it.remaining 1 fun remaining =>
    (Circle.forwardOnWords it.front remaining it.slots.size).bind fun last =>
    .result (it.slots.at? last, { it with remaining := remaining })

@[inherit_doc nextBackOnWords]
def nextBack (it : RingTraversal α) : Option α × RingTraversal α :=
  it.nextBackOnWords.exact

theorem nextBack_eq (it : RingTraversal α) :
    it.nextBack =
      if it.remaining = 0 then
        (none, it)
      else
        let remaining := it.remaining - 1
        (it.slots.at? (Circle.forward it.front remaining it.slots.size),
          { it with remaining := remaining }) := by
  refine (Calculation.exact_ite ..).trans (ite_congr rfl (fun _ => rfl) fun _ => ?_)
  exact Calculation.exact_bind ..

/-- Jump over `n` elements and yield the one behind them. -/
def nthOnWords (n : Nat) (it : RingTraversal α) : Calculation (Option α × RingTraversal α) :=
  if it.remaining ≤ n then
    (Circle.forwardOnWords it.front it.remaining it.slots.size).bind fun front =>
    .result (none, { it with front := front, remaining := 0 })
  else
    (Circle.forwardOnWords it.front n it.slots.size).bind fun front =>
    .sub it.remaining n fun remaining =>
    nextOnWords { it with front := front, remaining := remaining }

@[inherit_doc nthOnWords]
def nth (n : Nat) (it : RingTraversal α) : Option α × RingTraversal α :=
  (it.nthOnWords n).exact

theorem nth_eq (n : Nat) (it : RingTraversal α) :
    it.nth n =
      if it.remaining ≤ n then
        (none, { it with
          front := Circle.forward it.front it.remaining it.slots.size
          remaining := 0 })
      else
        next { it with
          front := Circle.forward it.front n it.slots.size
          remaining := it.remaining - n } := by
  refine (Calculation.exact_ite ..).trans (ite_congr rfl (fun _ => ?_) fun _ => ?_)
  · exact Calculation.exact_bind ..
  · exact Calculation.exact_bind ..

instance : Traversal (RingTraversal α) α where
  next := next
  nextBack := nextBack
  remaining := remaining
  nth := nth
  nthBack := Traversal.skip nextBack

/-- The first `index` elements, or all if there are fewer, and the others. -/
def splitAtOnWords (index : Nat) (it : RingTraversal α) :
    Calculation (RingTraversal α × RingTraversal α) :=
  let index := min index it.remaining
  (Circle.forwardOnWords it.front index it.slots.size).bind fun front =>
  .sub it.remaining index fun remaining =>
  .result ({ it with remaining := index }, { it with front := front, remaining := remaining })

@[inherit_doc splitAtOnWords]
def splitAt (index : Nat) (it : RingTraversal α) : RingTraversal α × RingTraversal α :=
  (it.splitAtOnWords index).exact

@[simp] theorem exact_splitAtOnWords (index : Nat) (it : RingTraversal α) :
    (it.splitAtOnWords index).exact = it.splitAt index := rfl

theorem splitAt_eq (index : Nat) (it : RingTraversal α) :
    it.splitAt index =
      let index := min index it.remaining
      ({ it with remaining := index },
        { it with
          front := Circle.forward it.front index it.slots.size
          remaining := it.remaining - index }) :=
  Calculation.exact_bind ..

end RingTraversal

/-- How to divide a run of elements into smaller ones. -/
inductive SplitTree where
  | leaf
  /-- Split at `index` and divide both parts further. -/
  | node (index : Nat) (left right : SplitTree)
  deriving DecidableEq, Inhabited, Repr

/-- The parts of a run when it is divided along a tree, in order. -/
def RingTraversal.leavesOnWords {α : Type u} :
    SplitTree → RingTraversal α → Calculation (List (RingTraversal α))
  | .leaf, it => .result [it]
  | .node index left right, it =>
    (it.splitAtOnWords index).bind fun (first, second) =>
    (leavesOnWords left first).bind fun front =>
    (leavesOnWords right second).bind fun back =>
    .result (front ++ back)

@[inherit_doc RingTraversal.leavesOnWords]
def RingTraversal.leaves {α : Type u} (tree : SplitTree) (it : RingTraversal α) :
    List (RingTraversal α) :=
  (leavesOnWords tree it).exact

theorem RingTraversal.leaves_node {α : Type u} (index : Nat) (left right : SplitTree)
    (it : RingTraversal α) :
    leaves (.node index left right) it =
      leaves left (it.splitAt index).1 ++ leaves right (it.splitAt index).2 := by
  simp only [leaves, leavesOnWords, Calculation.exact_bind, Calculation.exact_result,
    exact_splitAtOnWords]

namespace Deque

variable {α : Type u}

/-- The elements from front to back. -/
def traversalOnWords (d : Deque α) : Calculation (RingTraversal α) :=
  d.lengthOnWords.bind fun length => .result ⟨d.slots, d.head, length⟩

@[inherit_doc traversalOnWords]
def traversal (d : Deque α) : RingTraversal α :=
  d.traversalOnWords.exact

theorem traversal_eq (d : Deque α) : d.traversal = ⟨d.slots, d.head, d.length⟩ :=
  Calculation.exact_bind ..

/-- The elements from back to front. -/
def descending (d : Deque α) : Reversed (RingTraversal α) :=
  ⟨d.traversal⟩

end Deque

end RingDeque
