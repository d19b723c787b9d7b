import RingDeque.Allocator
import RingDeque.Slots

/-!
# The deque

A deque keeps its elements in a buffer of slots that is read as a circle. The elements stand in the
slots from `head` up to, but not including, `tail`; every other slot is empty. The slot at `tail` is
one of the empty ones, so `head = tail` means that the deque is empty, and a buffer holds at most
one element fewer than it has slots.

`toList` is what a deque is to its users: the elements from front to back. Layout matters to the
cursors, which remember slots.

The structure carries no proof. Growth looks at a buffer that was just filled to the last slot,
where `head = tail` means the opposite, and cursors are tried on buffers they were not made for.
`WellFormed` says which states a deque rests in between operations.
-/

namespace RingDeque

/-- A double-ended queue in a ring of slots. -/
structure Deque (α : Type u) where
  slots : Slots α
  /-- The slot of the front element. -/
  head : Nat
  /-- The slot behind the back element. -/
  tail : Nat
  deriving DecidableEq, Repr

namespace Deque

variable {α : Type u}

/-- How many elements a deque holds before it first grows, unless it is told otherwise. -/
def defaultCapacity : Nat := 16

/-- The number of slots. -/
def slotCount (d : Deque α) : Nat :=
  d.slots.size

/-- What slot `p` holds. -/
def slot (d : Deque α) (p : Nat) : Option α :=
  d.slots.at? p

theorem slot_eq_none_of_le {d : Deque α} {p : Nat} (hp : d.slotCount ≤ p) : d.slot p = none :=
  Slots.at?_eq_none_of_size_le _ hp

theorem lt_slotCount_of_slot {d : Deque α} {p : Nat} {x : α} (hp : d.slot p = some x) :
    p < d.slotCount := by
  refine Nat.lt_of_not_le fun beyond => ?_
  rw [slot_eq_none_of_le beyond] at hp
  contradiction

/-- The number of elements. -/
def lengthOnWords (d : Deque α) : Calculation Nat :=
  Circle.stepsOnWords d.head d.tail d.slotCount

@[inherit_doc lengthOnWords]
def length (d : Deque α) : Nat :=
  Circle.steps d.head d.tail d.slotCount

/-- Whether there is no element. -/
def isEmpty (d : Deque α) : Bool :=
  d.head == d.tail

/-- The number of elements that the buffer has room for. -/
def capacity (d : Deque α) : Nat :=
  d.slotCount - 1

/-- Whether the elements run past the end of the buffer. -/
def isWrapped (d : Deque α) : Bool :=
  d.tail < d.head

/-- The slot of the element at `index`. For the length itself it is the slot behind the back. -/
def positionOnWords (d : Deque α) (index : Nat) : Calculation Nat :=
  Circle.forwardOnWords d.head index d.slotCount

@[inherit_doc positionOnWords]
def position (d : Deque α) (index : Nat) : Nat :=
  Circle.forward d.head index d.slotCount

@[simp] theorem exact_lengthOnWords (d : Deque α) : d.lengthOnWords.exact = d.length := rfl

@[simp] theorem exact_positionOnWords (d : Deque α) (index : Nat) :
    (d.positionOnWords index).exact = d.position index := rfl

/-- The element at `index`, counted from the front. -/
def get?OnWords (index : Nat) (d : Deque α) : Calculation (Option α) :=
  d.lengthOnWords.bind fun length =>
  if index < length then
    (d.positionOnWords index).bind fun p => .result (d.slot p)
  else
    .result none

@[inherit_doc get?OnWords]
def get? (d : Deque α) (index : Nat) : Option α :=
  (d.get?OnWords index).exact

theorem get?_eq (d : Deque α) (index : Nat) :
    d.get? index = if index < d.length then d.slot (d.position index) else none := by
  rw [get?, get?OnWords, Calculation.exact_bind]
  exact (Calculation.exact_ite ..).trans
    (ite_congr rfl (fun _ => Calculation.exact_bind ..) fun _ => rfl)

/-- The elements from front to back. -/
def toList (d : Deque α) : List α :=
  (List.range d.length).filterMap fun i => d.slot (d.position i)

/-- Slots are occupied exactly where the elements are, and one slot is always free. -/
structure WellFormed (d : Deque α) : Prop where
  head_lt : d.head < d.slotCount
  tail_lt : d.tail < d.slotCount
  isSome_slot_iff : ∀ p < d.slotCount,
    (d.slot p).isSome ↔ Circle.steps d.head p d.slotCount < d.length

/-- Whether the first `n` slots are occupied exactly where the elements are. -/
def fits (d : Deque α) : Nat → Bool
  | 0 => true
  | p + 1 => decide (Circle.steps d.head p d.slotCount < d.length) == (d.slot p).isSome && d.fits p

theorem fits_iff (d : Deque α) (n : Nat) :
    d.fits n ↔ ∀ p < n, (d.slot p).isSome ↔ Circle.steps d.head p d.slotCount < d.length := by
  induction n with
  | zero => simp [fits]
  | succ n ih =>
    simp only [fits, Bool.and_eq_true, ih, Nat.forall_lt_succ_right]
    rw [and_comm, beq_iff_eq, Bool.eq_iff_iff, decide_eq_true_iff, iff_comm (a := _ < _)]

/-- Whether the slots are occupied exactly where the elements are. -/
def isWellFormed (d : Deque α) : Bool :=
  d.slotCount != 0 && d.head < d.slotCount && d.tail < d.slotCount &&
    d.length < d.slotCount && (d.slot d.tail).isNone && d.fits d.slotCount

/-- A deque belongs to one thread; no lock keeps others from it. -/
def isSynced (_ : Deque α) : Bool :=
  false

/-- An empty deque with room for `capacity` elements, as far as the allocator's bound allows. Even
without room there is one slot, the one that stays empty. -/
def withCapacity (a : Allocator) (capacity : Nat) : Deque α where
  slots := Slots.empty (min (capacity + 1) a.maxSlots)
  head := 0
  tail := 0

end Deque

end RingDeque
