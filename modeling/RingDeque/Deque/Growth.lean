import RingDeque.Deque.Basic
import RingDeque.Error

/-!
# Changing the size of the buffer

A deque that runs out of slots gets a larger buffer: a small one more than doubles, a large one
grows by half, and a request for more than that is met exactly. `grow` enlarges the buffer where it
stands. If the elements wrap, those that reach up to the old end slide to the new end, so that
`tail` stays and `head` moves by the number of added slots. `relayout` lays the elements out from
slot `0` of a fresh buffer and can insert a list of new ones on the way.

An update returns its answer together with the deque afterwards. When the answer is an error that is
the deque as it was before.
-/

namespace RingDeque.Deque

variable {α : Type u}

/-- A sum that is refused where it is no word. -/
def sum? (i j : Nat) : Option Nat :=
  if i + j ≤ wordMax then some (i + j) else none

/-- How many slots a buffer gains when nobody asks for more. -/
def jumpOnWords (d : Deque α) : Calculation Nat :=
  if d.slotCount < 64 then .add d.slotCount 2 .result else .result (d.slotCount / 2)

@[inherit_doc jumpOnWords]
def jump (d : Deque α) : Nat :=
  d.jumpOnWords.exact

@[simp] theorem exact_jumpOnWords (d : Deque α) : d.jumpOnWords.exact = d.jump := rfl

theorem jump_eq (d : Deque α) :
    d.jump = if d.slotCount < 64 then d.slotCount + 2 else d.slotCount / 2 := by
  simp [jump, jumpOnWords]

/-- The slot count after growing by at least `needed` slots. The sum with what is needed is refused
where it is no word, the sum with the jump stops at the largest one. -/
def grownSlotCountOnWords (a : Allocator) (d : Deque α) (needed : Nat) :
    Calculation (Except Error Nat) :=
  match (sum? d.slotCount needed).filter (· ≤ a.maxSlots) with
  | none => .result (.error (.capacityOverflow (min (d.slotCount + needed) wordMax)))
  | some minimum =>
    d.jumpOnWords.bind fun jump =>
    .result (.ok
      (if jump < needed then minimum else min (min (d.slotCount + jump) wordMax) a.maxSlots))

@[inherit_doc grownSlotCountOnWords]
def grownSlotCount (a : Allocator) (d : Deque α) (needed : Nat) : Except Error Nat :=
  (d.grownSlotCountOnWords a needed).exact

@[simp] theorem exact_grownSlotCountOnWords (a : Allocator) (d : Deque α) (needed : Nat) :
    (d.grownSlotCountOnWords a needed).exact = d.grownSlotCount a needed := rfl

/-- No allocator has more slots than there are words, so the sums may be taken without bound. -/
theorem grownSlotCount_eq (a : Allocator) (d : Deque α) (needed : Nat) :
    d.grownSlotCount a needed =
      if d.slotCount + needed ≤ a.maxSlots then
        .ok (if d.jump < needed then d.slotCount + needed
          else min (d.slotCount + d.jump) a.maxSlots)
      else .error (.capacityOverflow (min (d.slotCount + needed) wordMax)) := by
  have bound : a.maxSlots ≤ wordMax := Nat.le_trans a.maxSlots_le (by decide)
  unfold grownSlotCount grownSlotCountOnWords sum?
  by_cases fits : d.slotCount + needed ≤ a.maxSlots
  · have words (n : Nat) : min (min n wordMax) a.maxSlots = min n a.maxSlots := by omega
    rw [if_pos (Nat.le_trans fits bound), Option.filter_some, if_pos (decide_eq_true fits),
      if_pos fits]
    simp only [Calculation.exact, Calculation.exact_bind, exact_jumpOnWords, words]
    rfl
  · rw [if_neg fits]
    split
    · rfl
    · next answer =>
        obtain ⟨⟨-, rfl⟩, bounded⟩ := by simpa using answer
        exact absurd bounded fits

/-- Whether the elements reach up to the end of the buffer and go on at its beginning. Growth meets
`head = tail` also in a buffer whose last slot was just filled; an occupied slot tells it from an
empty one. -/
def reachesOver (d : Deque α) : Bool :=
  d.tail < d.head || (d.tail == d.head && (d.slot d.head).isSome)

/-- Add at least `needed` slots and keep the order of the elements. -/
def growOnWords (a : Allocator) (needed : Nat) (d : Deque α) :
    Calculation (Except Error Unit × Deque α) :=
  (d.grownSlotCountOnWords a needed).bind fun
  | .error e => .result (.error e, d)
  | .ok count =>
    .sub count d.slotCount fun added =>
    if a.grants count then
      let slots : Slots α := d.slots ++ Slots.empty added
      if d.reachesOver then
        .sub d.slotCount d.head fun leading =>
        (slots.shiftBackwardOnWords d.head added leading).bind fun slots =>
        .add d.head added fun head =>
        .result (.ok (), { d with slots := slots, head := head })
      else
        .result (.ok (), { d with slots := slots })
    else
      .result (.error (.capacityOverflow count), d)

@[inherit_doc growOnWords]
def grow (a : Allocator) (needed : Nat) (d : Deque α) : Except Error Unit × Deque α :=
  (d.growOnWords a needed).exact

@[simp] theorem exact_growOnWords (a : Allocator) (needed : Nat) (d : Deque α) :
    (d.growOnWords a needed).exact = d.grow a needed := rfl

section Grow

variable {a : Allocator} {needed count : Nat} {d : Deque α}

theorem grow_of_error {e : Error} (h : d.grownSlotCount a needed = .error e) :
    d.grow a needed = (.error e, d) := by
  rw [grow, growOnWords, Calculation.exact_bind, exact_grownSlotCountOnWords, h]
  rfl

theorem grow_of_not_granted (h : d.grownSlotCount a needed = .ok count)
    (hg : a.grants count = false) :
    d.grow a needed = (.error (.capacityOverflow count), d) := by
  rw [grow, growOnWords, Calculation.exact_bind, exact_grownSlotCountOnWords, h]
  simp [hg]

theorem grow_of_granted (h : d.grownSlotCount a needed = .ok count) (hg : a.grants count = true) :
    d.grow a needed = (.ok (),
      if d.reachesOver then
        { d with
          slots := (d.slots ++ Slots.empty (count - d.slotCount) : Slots α).shiftBackward d.head
            (count - d.slotCount) (d.slotCount - d.head)
          head := d.head + (count - d.slotCount) }
      else
        { d with slots := d.slots ++ Slots.empty (count - d.slotCount) }) := by
  rw [grow, growOnWords, Calculation.exact_bind, exact_grownSlotCountOnWords, h]
  simp only [Calculation.exact, hg, if_true]
  cases d.reachesOver with
  | true => simp
  | false => rfl

end Grow

/-- Move the elements into a fresh buffer of `count` slots, with `inserted` in front of the element
at `index`. -/
def relayoutOnWords (a : Allocator) (count index : Nat) (inserted : List α) (d : Deque α) :
    Calculation (Except Error Unit × Deque α) :=
  if a.grants count then
    let elements := d.toList.take index ++ inserted ++ d.toList.drop index
    .add elements.length 1 fun enough =>
    .result (.ok (), {
      slots := (elements.map some).toArray ++ Slots.empty (max count enough - elements.length)
      head := 0
      tail := elements.length })
  else
    .result (.error (.capacityOverflow count), d)

@[inherit_doc relayoutOnWords]
def relayout (a : Allocator) (count index : Nat) (inserted : List α) (d : Deque α) :
    Except Error Unit × Deque α :=
  (d.relayoutOnWords a count index inserted).exact

theorem relayout_eq (a : Allocator) (count index : Nat) (inserted : List α) (d : Deque α) :
    d.relayout a count index inserted =
      let elements := d.toList.take index ++ inserted ++ d.toList.drop index
      if a.grants count then
        (.ok (), ⟨(elements.map some).toArray ++
          Slots.empty (max count (elements.length + 1) - elements.length), 0, elements.length⟩)
      else (.error (.capacityOverflow count), d) := by
  simp only [relayout, relayoutOnWords, Calculation.exact, Calculation.exact_ite]

/-- Make room for `capacity` elements in all. -/
def ensureCapacityOnWords (a : Allocator) (capacity : Nat) (d : Deque α) :
    Calculation (Except Error Unit × Deque α) :=
  match sum? capacity 1 with
  | none => .result (.error (.capacityOverflow capacity), d)
  | some count =>
    if d.slotCount < count then
      .sub count d.slotCount fun needed => d.growOnWords a needed
    else
      .result (.ok (), d)

@[inherit_doc ensureCapacityOnWords]
def ensureCapacity (a : Allocator) (capacity : Nat) (d : Deque α) : Except Error Unit × Deque α :=
  (d.ensureCapacityOnWords a capacity).exact

@[simp] theorem exact_ensureCapacityOnWords (a : Allocator) (capacity : Nat) (d : Deque α) :
    (d.ensureCapacityOnWords a capacity).exact = d.ensureCapacity a capacity := rfl

theorem ensureCapacity_eq (a : Allocator) (capacity : Nat) (d : Deque α) :
    d.ensureCapacity a capacity =
      if wordMax ≤ capacity then (.error (.capacityOverflow capacity), d)
      else if d.slotCount < capacity + 1 then d.grow a (capacity + 1 - d.slotCount)
      else (.ok (), d) := by
  unfold ensureCapacity ensureCapacityOnWords sum?
  by_cases beyond : wordMax ≤ capacity
  · rw [if_neg (by omega), if_pos beyond]
    rfl
  · rw [if_pos (by omega), if_neg beyond]
    exact Calculation.exact_ite ..

/-- Give up the free slots, all but the one that stays empty. -/
def tryTrimToSizeOnWords (a : Allocator) (d : Deque α) :
    Calculation (Except Error Unit × Deque α) :=
  d.lengthOnWords.bind fun length =>
  .add length 1 fun count =>
  if count < d.slotCount then
    d.relayoutOnWords a count length []
  else
    .result (.ok (), d)

@[inherit_doc tryTrimToSizeOnWords]
def tryTrimToSize (a : Allocator) (d : Deque α) : Except Error Unit × Deque α :=
  (d.tryTrimToSizeOnWords a).exact

theorem tryTrimToSize_eq (a : Allocator) (d : Deque α) :
    d.tryTrimToSize a =
      if d.length + 1 < d.slotCount then d.relayout a (d.length + 1) d.length []
      else (.ok (), d) := by
  rw [tryTrimToSize, tryTrimToSizeOnWords, Calculation.exact_bind]
  exact Calculation.exact_ite ..

/-- Give up the free slots if the smaller buffer is to be had. -/
def trimToSize (a : Allocator) (d : Deque α) : Deque α :=
  (d.tryTrimToSize a).2

end RingDeque.Deque
