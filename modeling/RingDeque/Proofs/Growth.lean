import RingDeque.Deque.Growth
import RingDeque.Proofs.Layout
import RingDeque.Proofs.Shifts

/-!
# Growth keeps the elements

An operation that needs more slots than there are asks the allocator for them. `Room` says that the
request, if there is one, is granted; it is the exact condition under which the operation succeeds.
Without room the deque is returned as it was, together with an error that names the size asked for.

Growth is proved for every deque that stores its elements, full ones included, since an addition at
either end fills the last slot before it grows.
-/

namespace RingDeque.Deque

variable {α : Type u} {a : Allocator} {d : Deque α} {xs ys : List α} {needed count index k : Nat}

/-- The deque has room for `count` elements, or can get it. -/
def Room (a : Allocator) (count : Nat) (d : Deque α) : Prop :=
  count < d.slotCount ∨
    ∃ size, d.grownSlotCount a (count + 1 - d.slotCount) = .ok size ∧ a.grants size = true

/-- An error for want of slots. -/
def NoRoom (e : Error) : Prop :=
  ∃ requested, e = .capacityOverflow requested

theorem le_of_grownSlotCount (h : d.grownSlotCount a needed = .ok count) :
    d.slotCount + needed ≤ count ∧ count ≤ a.maxSlots := by
  rw [grownSlotCount_eq] at h
  split at h
  · injection h with h
    split at h <;> omega
  · contradiction

/-- A bound on slots that is not reached and an allocator that has all it may give. -/
theorem room_of_lt (ha : ∀ n ≤ a.maxSlots, a.grants n = true) (h : count < a.maxSlots) :
    d.Room a count := by
  by_cases fits : count < d.slotCount
  · exact .inl fits
  · have bound : d.slotCount + (count + 1 - d.slotCount) ≤ a.maxSlots := by omega
    have answer : ∃ size, d.grownSlotCount a (count + 1 - d.slotCount) = .ok size := by
      rw [grownSlotCount_eq, if_pos bound]
      exact ⟨_, rfl⟩
    obtain ⟨size, hsize⟩ := answer
    exact .inr ⟨size, hsize, ha _ (le_of_grownSlotCount hsize).2⟩

theorem noRoom_of_grownSlotCount {e : Error} (h : d.grownSlotCount a needed = .error e) :
    NoRoom e := by
  rw [grownSlotCount_eq] at h
  split at h
  · contradiction
  · injection h with h
    exact ⟨_, h.symm⟩

theorem at?_append_empty (slots : Slots α) (n k : Nat) :
    Slots.at? (slots ++ Slots.empty n) k = if k < slots.size then slots.at? k else none := by
  simp only [Slots.at?, Slots.empty, Array.getElem?_append, Array.getElem?_replicate]
  grind

/-- What the slots hold after more of them were added at the end. -/
theorem Stores.at?_added (h : d.Stores xs) (n p : Nat) :
    Slots.at? (d.slots ++ Slots.empty n) p =
      if p < d.slotCount then xs[Circle.steps d.head p d.slotCount]? else none := by
  rw [at?_append_empty]
  change (if p < d.slotCount then d.slot p else none) = _
  split
  · next inside => rw [h.slot_eq inside]
  · rfl

/-- When the elements reach over the end of the buffer they fill it up to there. -/
theorem Stores.reachesOver_iff (h : d.Stores xs) (hm : 0 < d.slotCount) :
    d.reachesOver = true ↔ d.slotCount ≤ d.head + xs.length := by
  have front : d.slot d.head = xs[0]? := by
    have := h.slot_forward hm
    rwa [Circle.forward_zero h.head_lt] at this
  have head := h.head_lt
  have length := h.length_le
  have tail := h.tail_eq
  simp only [reachesOver, Bool.or_eq_true, Bool.and_eq_true, decide_eq_true_eq, beq_iff_eq, front]
  cases xs with
  | nil =>
      rw [List.length_nil, Circle.forward_zero head] at tail
      simp [tail, head]
  | cons x xs =>
      simp only [List.length_cons, List.getElem?_cons_zero, Option.isSome_some, and_true] at *
      simp only [Circle.forward_eq] at tail
      split at tail <;> omega

/-- The elements that reach up to the end move to the new end, and `tail` stays. -/
theorem Stores.grow_of_granted (h : d.Stores xs) (hn : 0 < needed)
    (hc : d.grownSlotCount a needed = .ok count) (hg : a.grants count = true) :
    ∃ d', d.grow a needed = (.ok (), d') ∧ d'.Holds xs ∧ d'.slotCount = count ∧
      d'.tail = d.tail ∧
      d'.head = if d.slotCount ≤ d.head + xs.length then d.head + (count - d.slotCount)
        else d.head := by
  have larger := (le_of_grownSlotCount hc).1
  have head := h.head_lt
  have length := h.length_le
  have size : (d.slots ++ Slots.empty (count - d.slotCount) : Slots α).size = count := by
    rw [Array.size_append, Slots.size_empty]
    exact Nat.add_sub_cancel' (show d.slotCount ≤ count by omega)
  simp only [Deque.grow_of_granted hc hg, h.reachesOver_iff (show 0 < d.slotCount by omega)]
  split
  · next wraps =>
      -- The elements up to the old end go to the new end; what they leave is behind `tail`.
      have moved {p} (hp : p < count) := Slots.at?_shiftBackward d.head (count - d.slotCount)
        (d.slotCount - d.head) size (show d.head < count by omega) (by omega)
        (fun j hj _ _ => by rw [h.at?_added, if_neg (by omega)]) hp
      have size' := (Slots.size_shiftBackward (d.slots ++ Slots.empty (count - d.slotCount))
        d.head (count - d.slotCount) (d.slotCount - d.head)).trans size
      refine ⟨_, rfl, holds_mk size' (by omega) (by omega) ?_ ?_, size', rfl, rfl⟩
      · rw [h.tail_eq]
        simp only [Circle.forward_eq]
        split <;> split <;> omega
      · intro k hk
        rw [Slots.view_def size', moved (Circle.forward_lt (by omega) (by omega)), h.at?_added,
          h.at?_added, Circle.forward_eq]
        split
        · next leading =>
            rw [if_pos (by omega), if_pos (by omega), Circle.steps_eq, if_pos (by omega)]
            congr 1
            omega
        · next trailing =>
            rw [if_neg (by omega)]
            by_cases kept : k < d.slotCount
            · rw [if_neg (by omega), if_pos (by omega), Circle.steps_eq, if_neg (by omega)]
              congr 1
              omega
            · have beyond : xs[k]? = none := List.getElem?_eq_none (by omega)
              rw [beyond]
              split
              · rfl
              · exact if_neg (by omega)
  · next within =>
      refine ⟨_, rfl, holds_mk size (by omega) (by omega) ?_ ?_, size, rfl, rfl⟩
      · rw [h.tail_eq]
        simp only [Circle.forward_eq]
        split <;> split <;> omega
      · intro k hk
        rw [Slots.view_def size, h.at?_added]
        simp only [Circle.forward_eq, Circle.steps_eq]
        grind

theorem grow_of_refused
    (h : ∀ count, d.grownSlotCount a needed = .ok count → a.grants count = false) :
    ∃ e, NoRoom e ∧ d.grow a needed = (.error e, d) := by
  cases answer : d.grownSlotCount a needed with
  | error e => exact ⟨e, noRoom_of_grownSlotCount answer, grow_of_error answer⟩
  | ok count => exact ⟨_, ⟨count, rfl⟩, grow_of_not_granted answer (h count answer)⟩

/-- A fresh buffer that is large enough takes the old elements and the new ones, from slot `0`
on. -/
theorem Holds.relayout_of_granted (h : d.Holds xs) (index : Nat) (ys : List α)
    (hg : a.grants count = true) (hc : xs.length + ys.length < count) :
    ∃ d', d.relayout a count index ys = (.ok (), d') ∧
      d'.Holds (xs.take index ++ ys ++ xs.drop index) ∧ d'.head = 0 ∧ d'.slotCount = count := by
  have total : (xs.take index ++ ys ++ xs.drop index).length = xs.length + ys.length := by
    simp only [List.length_append, List.length_take, List.length_drop]
    omega
  rw [relayout_eq, if_pos hg]
  simp only [h.toList_eq]
  generalize xs.take index ++ ys ++ xs.drop index = elements at total
  have size : ((elements.map some).toArray ++ Slots.empty (max count (elements.length + 1) -
      elements.length) : Slots α).size = count := by
    simp only [Array.size_append, List.size_toArray, List.length_map, Slots.size_empty]
    omega
  refine ⟨_, rfl, holds_mk size (by omega) (by omega) ?_ ?_, rfl, size⟩
  · rw [Circle.zero_forward (by omega)]
  · intro k hk
    rw [Slots.view_zero (by omega), at?_append_empty]
    simp only [Slots.at?, List.size_toArray, List.length_map, List.getElem?_toArray,
      List.getElem?_map]
    grind

theorem relayout_of_refused (hg : a.grants count = false) :
    d.relayout a count index ys = (.error (.capacityOverflow count), d) := by
  simp [relayout_eq, hg]

/-- Room for more elements than fit is room for that many more slots. -/
theorem room_iff_of_le (h : d.slotCount ≤ count) :
    d.Room a count ↔
      ∃ size, d.grownSlotCount a (count + 1 - d.slotCount) = .ok size ∧ a.grants size = true := by
  unfold Room
  constructor
  · rintro (fits | granted)
    · omega
    · exact granted
  · exact .inr

theorem refused_of_not_room (h : d.slotCount ≤ count) (hr : ¬d.Room a count) (size : Nat)
    (hs : d.grownSlotCount a (count + 1 - d.slotCount) = .ok size) : a.grants size = false := by
  rw [room_iff_of_le h] at hr
  cases answer : a.grants size with
  | false => rfl
  | true => exact absurd ⟨size, hs, answer⟩ hr

/-- The elements stay; the capacity is reached if the allocator has the slots for it. -/
theorem Holds.ensureCapacity (h : d.Holds xs) (hc : count < wordMax) (hr : d.Room a count) :
    ∃ d', d.ensureCapacity a count = (.ok (), d') ∧ d'.Holds xs ∧ count ≤ d'.capacity := by
  rw [Deque.ensureCapacity_eq, if_neg (by omega)]
  by_cases fits : count < d.slotCount
  · refine ⟨d, if_neg (by omega), h, ?_⟩
    rw [capacity]
    omega
  · obtain ⟨size, hsize, hg⟩ := (room_iff_of_le (by omega)).1 hr
    obtain ⟨d', hd', holds, count_eq, -⟩ := h.toStores.grow_of_granted (by omega) hsize hg
    have larger := (le_of_grownSlotCount hsize).1
    refine ⟨d', by rw [if_pos (by omega), hd'], holds, ?_⟩
    rw [capacity, count_eq]
    omega

theorem ensureCapacity_of_not_room (hr : ¬(count < wordMax ∧ d.Room a count)) :
    ∃ e, NoRoom e ∧ d.ensureCapacity a count = (.error e, d) := by
  rw [Deque.ensureCapacity_eq]
  split
  · exact ⟨_, ⟨count, rfl⟩, rfl⟩
  · next word =>
      have refused : ¬d.Room a count := fun room => hr ⟨by omega, room⟩
      have full : d.slotCount ≤ count := Nat.le_of_not_lt fun fits => refused (.inl fits)
      rw [if_pos (by omega)]
      exact grow_of_refused (refused_of_not_room full refused)

theorem Holds.tryTrimToSize (h : d.Holds xs) :
    (∃ d', d.tryTrimToSize a = (.ok (), d') ∧ d'.Holds xs) ∨
      ∃ e, NoRoom e ∧ d.tryTrimToSize a = (.error e, d) := by
  rw [Deque.tryTrimToSize_eq, h.length_eq]
  split
  · cases hg : a.grants (xs.length + 1) with
    | true =>
        obtain ⟨d', hd', holds, -⟩ := h.relayout_of_granted xs.length [] hg
          (by simp)
        simp only [List.append_nil, List.take_append_drop] at holds
        exact .inl ⟨d', hd', holds⟩
    | false => exact .inr ⟨_, ⟨_, rfl⟩, relayout_of_refused hg⟩
  · exact .inl ⟨d, rfl, h⟩

theorem Holds.trimToSize (h : d.Holds xs) : (d.trimToSize a).Holds xs := by
  rw [Deque.trimToSize]
  obtain ⟨d', hd', holds⟩ | ⟨e, -, hd'⟩ := h.tryTrimToSize (a := a)
  · rwa [hd']
  · rwa [hd']

end RingDeque.Deque
