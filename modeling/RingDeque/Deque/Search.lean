import RingDeque.Deque.Positional

/-!
# Search

Searching for an element that equals a given value, from the front or from the back. Equality is
whatever `==` is for the elements; no law is asked of it. The search walks over the slots of the
elements, around the end of the buffer if the deque wraps, and stops at the first slot that fits.
-/

namespace RingDeque.Deque

variable {α : Type u}

/-- The index of the element in a slot that a search found. -/
def indexOfFoundOnWords (found : Option Nat) (d : Deque α) : Calculation (Option Nat) :=
  match found with
  | none => .result none
  | some p => (Circle.stepsOnWords d.head p d.slotCount).bind fun index => .result (some index)

theorem exact_indexOfFoundOnWords (found : Option Nat) (d : Deque α) :
    (d.indexOfFoundOnWords found).exact = found.map fun p => Circle.steps d.head p d.slotCount := by
  cases found with
  | none => rfl
  | some p => exact Calculation.exact_bind ..

/-- Remove the element in the slot that a search found; whether there was one. -/
def removeFoundOnWords (found : Option Nat) (d : Deque α) : Calculation (Bool × Deque α) :=
  match found with
  | none => .result (false, d)
  | some p =>
    (d.deleteOnWords p).bind fun outcome =>
    .result <|
      match outcome with
      | (some _, d) => (true, d)
      | (none, d) => (false, d)

@[inherit_doc removeFoundOnWords]
def removeFound (found : Option Nat) (d : Deque α) : Bool × Deque α :=
  (d.removeFoundOnWords found).exact

theorem removeFound_some (p : Nat) (d : Deque α) :
    d.removeFound (some p) =
      match d.delete p with
      | (some _, d) => (true, d)
      | (none, d) => (false, d) :=
  Calculation.exact_bind ..

variable [BEq α]

/-- Whether slot `p` holds an element equal to `x`. -/
def holds (d : Deque α) (x : α) (p : Nat) : Bool :=
  match d.slot p with
  | some y => y == x
  | none => false

/-- The first of the slots from `p` on, as many as the last argument says, that holds an element
equal to `x`. -/
def findFromOnWords (d : Deque α) (x : α) (p : Nat) : Nat → Calculation (Option Nat)
  | 0 => .result none
  | count + 1 =>
    if d.holds x p then
      .result (some p)
    else
      (Circle.nextOnWords p d.slotCount).bind fun next => d.findFromOnWords x next count

@[inherit_doc findFromOnWords]
def findFrom? (d : Deque α) (x : α) (p count : Nat) : Option Nat :=
  (d.findFromOnWords x p count).exact

theorem findFrom?_succ (d : Deque α) (x : α) (p count : Nat) :
    d.findFrom? x p (count + 1) =
      if d.holds x p then some p else d.findFrom? x (Circle.next p d.slotCount) count := by
  rw [findFrom?, findFromOnWords]
  exact (Calculation.exact_ite ..).trans
    (ite_congr rfl (fun _ => rfl) fun _ => Calculation.exact_bind ..)

/-- The first of the slots in front of slot `p`, going frontward, as many as the last argument says,
that holds an element equal to `x`. -/
def findBeforeOnWords (d : Deque α) (x : α) (p : Nat) : Nat → Calculation (Option Nat)
  | 0 => .result none
  | count + 1 =>
    (Circle.prevOnWords p d.slotCount).bind fun q =>
    if d.holds x q then .result (some q) else d.findBeforeOnWords x q count

@[inherit_doc findBeforeOnWords]
def findBefore? (d : Deque α) (x : α) (p count : Nat) : Option Nat :=
  (d.findBeforeOnWords x p count).exact

theorem findBefore?_succ (d : Deque α) (x : α) (p count : Nat) :
    d.findBefore? x p (count + 1) =
      if d.holds x (Circle.prev p d.slotCount) then some (Circle.prev p d.slotCount)
      else d.findBefore? x (Circle.prev p d.slotCount) count := by
  rw [findBefore?, findBeforeOnWords, Calculation.exact_bind]
  exact Calculation.exact_ite ..

/-- The slot of the first element equal to `x`. -/
def findSlotOnWords (x : α) (d : Deque α) : Calculation (Option Nat) :=
  d.lengthOnWords.bind fun length => d.findFromOnWords x d.head length

@[inherit_doc findSlotOnWords]
def findSlot? (x : α) (d : Deque α) : Option Nat :=
  (d.findSlotOnWords x).exact

theorem findSlot?_eq (x : α) (d : Deque α) : d.findSlot? x = d.findFrom? x d.head d.length :=
  Calculation.exact_bind ..

/-- The slot of the last element equal to `x`. -/
def findLastSlotOnWords (x : α) (d : Deque α) : Calculation (Option Nat) :=
  d.lengthOnWords.bind fun length => d.findBeforeOnWords x d.tail length

@[inherit_doc findLastSlotOnWords]
def findLastSlot? (x : α) (d : Deque α) : Option Nat :=
  (d.findLastSlotOnWords x).exact

theorem findLastSlot?_eq (x : α) (d : Deque α) :
    d.findLastSlot? x = d.findBefore? x d.tail d.length :=
  Calculation.exact_bind ..

/-- The index of the first element equal to `x`. -/
def indexOfOnWords (x : α) (d : Deque α) : Calculation (Option Nat) :=
  (d.findSlotOnWords x).bind d.indexOfFoundOnWords

@[inherit_doc indexOfOnWords]
def indexOf? (x : α) (d : Deque α) : Option Nat :=
  (d.indexOfOnWords x).exact

theorem indexOf?_eq (x : α) (d : Deque α) :
    d.indexOf? x = (d.findSlot? x).map fun p => Circle.steps d.head p d.slotCount :=
  (Calculation.exact_bind ..).trans (exact_indexOfFoundOnWords ..)

/-- The index of the last element equal to `x`. -/
def lastIndexOfOnWords (x : α) (d : Deque α) : Calculation (Option Nat) :=
  (d.findLastSlotOnWords x).bind d.indexOfFoundOnWords

@[inherit_doc lastIndexOfOnWords]
def lastIndexOf? (x : α) (d : Deque α) : Option Nat :=
  (d.lastIndexOfOnWords x).exact

theorem lastIndexOf?_eq (x : α) (d : Deque α) :
    d.lastIndexOf? x = (d.findLastSlot? x).map fun p => Circle.steps d.head p d.slotCount :=
  (Calculation.exact_bind ..).trans (exact_indexOfFoundOnWords ..)

/-- Whether some element equals `x`. -/
def contains (x : α) (d : Deque α) : Bool :=
  (d.findSlot? x).isSome

/-- Whether each of `xs` equals some element. -/
def containsAll (xs : List α) (d : Deque α) : Bool :=
  xs.all d.contains

/-- Remove the first element equal to `x`; whether there was one. -/
def removeFirstOccurrenceOnWords (x : α) (d : Deque α) : Calculation (Bool × Deque α) :=
  (d.findSlotOnWords x).bind d.removeFoundOnWords

@[inherit_doc removeFirstOccurrenceOnWords]
def removeFirstOccurrence (x : α) (d : Deque α) : Bool × Deque α :=
  (d.removeFirstOccurrenceOnWords x).exact

theorem removeFirstOccurrence_eq (x : α) (d : Deque α) :
    d.removeFirstOccurrence x = d.removeFound (d.findSlot? x) :=
  Calculation.exact_bind ..

/-- Remove the last element equal to `x`; whether there was one. -/
def removeLastOccurrenceOnWords (x : α) (d : Deque α) : Calculation (Bool × Deque α) :=
  (d.findLastSlotOnWords x).bind d.removeFoundOnWords

@[inherit_doc removeLastOccurrenceOnWords]
def removeLastOccurrence (x : α) (d : Deque α) : Bool × Deque α :=
  (d.removeLastOccurrenceOnWords x).exact

theorem removeLastOccurrence_eq (x : α) (d : Deque α) :
    d.removeLastOccurrence x = d.removeFound (d.findLastSlot? x) :=
  Calculation.exact_bind ..

/-- Remove the first element equal to `x`, as from a list; whether there was one. -/
def remove (x : α) (d : Deque α) : Bool × Deque α :=
  d.removeFirstOccurrence x

end RingDeque.Deque
