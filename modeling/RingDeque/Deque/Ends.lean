import RingDeque.Deque.Growth
import RingDeque.Fault

/-!
# The two ends

Adding, removing and looking at the front and the back. An addition writes the element into the free
slot first and grows afterwards if that was the last one; when the buffer cannot grow, the element
is taken out again and the end returns to where it was.

Each addition comes twice: `try…` reports that there is no room, the other treats it as a fault.
-/

namespace RingDeque.Deque

variable {α : Type u}

/-- Add `x` at the front. -/
def tryPushFrontOnWords (a : Allocator) (x : α) (d : Deque α) :
    Calculation (Except Error Unit × Deque α) :=
  (Circle.prevOnWords d.head d.slotCount).bind fun head =>
  let filled : Deque α := { d with slots := d.slots.put head (some x), head := head }
  if head = filled.tail then
    (filled.growOnWords a 1).bind fun
    | (.ok (), grown) => .result (.ok (), grown)
    | (.error e, full) =>
      (Circle.nextOnWords full.head full.slotCount).bind fun next =>
      .result (.error e, { full with slots := full.slots.put full.head none, head := next })
  else
    .result (.ok (), filled)

@[inherit_doc tryPushFrontOnWords]
def tryPushFront (a : Allocator) (x : α) (d : Deque α) : Except Error Unit × Deque α :=
  (d.tryPushFrontOnWords a x).exact

/-- Add `x` at the back. -/
def tryPushBackOnWords (a : Allocator) (x : α) (d : Deque α) :
    Calculation (Except Error Unit × Deque α) :=
  (Circle.nextOnWords d.tail d.slotCount).bind fun tail =>
  let filled : Deque α := { d with slots := d.slots.put d.tail (some x), tail := tail }
  if filled.head = tail then
    (filled.growOnWords a 1).bind fun
    | (.ok (), grown) => .result (.ok (), grown)
    | (.error e, full) =>
      (Circle.prevOnWords full.tail full.slotCount).bind fun tail =>
      .result (.error e, { full with slots := full.slots.put tail none, tail := tail })
  else
    .result (.ok (), filled)

@[inherit_doc tryPushBackOnWords]
def tryPushBack (a : Allocator) (x : α) (d : Deque α) : Except Error Unit × Deque α :=
  (d.tryPushBackOnWords a x).exact

@[simp] theorem exact_tryPushBackOnWords (a : Allocator) (x : α) (d : Deque α) :
    (d.tryPushBackOnWords a x).exact = d.tryPushBack a x := rfl

/-- An answer in which an error is a fault. -/
def orFault {β : Type v} : Except Error β × Deque α → Except Fault β × Deque α
  | (.ok y, d) => (.ok y, d)
  | (.error e, d) => (.error (.refused e), d)

/-- Add `x` at the front; no room is a fault. -/
def pushFront (a : Allocator) (x : α) (d : Deque α) : Except Fault Unit × Deque α :=
  orFault (d.tryPushFront a x)

/-- Add `x` at the back; no room is a fault. -/
def pushBack (a : Allocator) (x : α) (d : Deque α) : Except Fault Unit × Deque α :=
  orFault (d.tryPushBack a x)

/-- Remove the front element. -/
def popFrontOnWords (d : Deque α) : Calculation (Option α × Deque α) :=
  match d.slot d.head with
  | none => .result (none, d)
  | some x =>
    (Circle.nextOnWords d.head d.slotCount).bind fun next =>
    .result (some x, { d with slots := d.slots.put d.head none, head := next })

@[inherit_doc popFrontOnWords]
def popFront (d : Deque α) : Option α × Deque α :=
  d.popFrontOnWords.exact

theorem popFront_eq (d : Deque α) :
    d.popFront =
      match d.slot d.head with
      | none => (none, d)
      | some x =>
        (some x, { d with
          slots := d.slots.put d.head none, head := Circle.next d.head d.slotCount }) := by
  rw [popFront, popFrontOnWords]
  cases d.slot d.head <;> rfl

/-- Remove the back element. -/
def popBackOnWords (d : Deque α) : Calculation (Option α × Deque α) :=
  (Circle.prevOnWords d.tail d.slotCount).bind fun last =>
  .result <|
    match d.slot last with
    | none => (none, d)
    | some x => (some x, { d with slots := d.slots.put last none, tail := last })

@[inherit_doc popBackOnWords]
def popBack (d : Deque α) : Option α × Deque α :=
  d.popBackOnWords.exact

theorem popBack_eq (d : Deque α) :
    d.popBack =
      match d.slot (Circle.prev d.tail d.slotCount) with
      | none => (none, d)
      | some x =>
        (some x, { d with
          slots := d.slots.put (Circle.prev d.tail d.slotCount) none
          tail := Circle.prev d.tail d.slotCount }) := by
  rw [popBack, popBackOnWords, Calculation.exact_bind]
  rfl

/-- Remove the front element of a deque that should have one. -/
def removeFirst (d : Deque α) : Except Error α × Deque α :=
  match d.popFront with
  | (some x, d) => (.ok x, d)
  | (none, d) => (.error .noSuchElement, d)

/-- Remove the back element of a deque that should have one. -/
def removeLast (d : Deque α) : Except Error α × Deque α :=
  match d.popBack with
  | (some x, d) => (.ok x, d)
  | (none, d) => (.error .noSuchElement, d)

/-- The front element. -/
def front? (d : Deque α) : Option α :=
  d.slot d.head

/-- The back element. -/
def back? (d : Deque α) : Option α :=
  d.slot (Circle.prev d.tail d.slotCount)

/-- The front element of a deque that should have one. -/
def first (d : Deque α) : Except Error α :=
  match d.front? with
  | some x => .ok x
  | none => .error .noSuchElement

/-- The back element of a deque that should have one. -/
def last (d : Deque α) : Except Error α :=
  match d.back? with
  | some x => .ok x
  | none => .error .noSuchElement

/-! Several operations go by a second name, from the habits of lists, queues and stacks. -/

/-- Add `x` at the front and say so; no room is a fault. -/
def offerFirst (a : Allocator) (x : α) (d : Deque α) : Except Fault Bool × Deque α :=
  match d.pushFront a x with
  | (.ok (), d) => (.ok true, d)
  | (.error fault, d) => (.error fault, d)

/-- Add `x` at the back and say so; no room is a fault. -/
def offerLast (a : Allocator) (x : α) (d : Deque α) : Except Fault Bool × Deque α :=
  match d.pushBack a x with
  | (.ok (), d) => (.ok true, d)
  | (.error fault, d) => (.error fault, d)

/-- Add `x` at the front, as to a stack. -/
def push (a : Allocator) (x : α) (d : Deque α) : Except Fault Unit × Deque α :=
  d.pushFront a x

/-- Remove the front element, as from a queue. -/
def poll (d : Deque α) : Option α × Deque α :=
  d.popFront

/-- Remove the front element of a stack that should have one. -/
def pop (d : Deque α) : Except Error α × Deque α :=
  d.removeFirst

/-- The front element, as of a queue. -/
def peek (d : Deque α) : Option α :=
  d.front?

/-- The front element of a queue that should have one. -/
def element (d : Deque α) : Except Error α :=
  d.first

/-- Put `x` in place of the element in slot `p`, and return that element. An empty slot stays
empty. -/
def replaceSlot (p : Nat) (x : α) (d : Deque α) : Option α × Deque α :=
  match d.slot p with
  | none => (none, d)
  | some y => (some y, { d with slots := d.slots.put p (some x) })

/-- Put `x` in place of the front element. -/
def replaceFront (x : α) (d : Deque α) : Option α × Deque α :=
  d.replaceSlot d.head x

/-- Put `x` in place of the back element. -/
def replaceBack (x : α) (d : Deque α) : Option α × Deque α :=
  d.replaceSlot (Circle.prev d.tail d.slotCount) x

/-- Remove all elements and keep the buffer. -/
def clear (d : Deque α) : Deque α where
  slots := d.slots.clear d.head d.length
  head := 0
  tail := 0

end RingDeque.Deque
