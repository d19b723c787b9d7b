import RingDeque.Deque.Growth
import RingDeque.Proofs.Iterators
import RingDeque.Proofs.Search

/-!
# Scanning the legs

The slots of the elements are two runs of the buffer, the second of which begins with its first
slot. An operation that walks from slot to slot around the end of the buffer visits them as a scan
does that takes one run after the other. So does moving the elements into another buffer: it takes
whatever stands between the front slot and the end of the buffer, and then whatever stands in front
of the front slot.
-/

namespace RingDeque

variable {α : Type u} {xs : List α}

/-- Empty the slots in a list. -/
def Slots.clearEach (slots : Slots α) (places : List Nat) : Slots α :=
  places.foldl (fun slots p => slots.put p none) slots

namespace Deque

variable {d : Deque α} {k count : Nat}

/-- What stands in the buffer from the front slot on, and then in front of it. -/
def scan (d : Deque α) : List α :=
  (d.slots.toList.drop d.head ++ d.slots.toList.take d.head).filterMap id

/-- Move what a scan finds into a fresh buffer of `count` slots, and `inserted` when `index` of them
have been moved. -/
def relayoutByScan (a : Allocator) (count index : Nat) (inserted : List α) (d : Deque α) :
    Except Error Unit × Deque α :=
  if a.grants count then
    let slots : Slots α :=
      ((d.scan.take index).map some ++ inserted.map some ++ (d.scan.drop index).map some).toArray
    (.ok (), {
      slots := slots ++ Slots.empty (max count (slots.size + 1) - slots.size)
      head := 0
      tail := slots.size })
  else
    (.error (.capacityOverflow count), d)

/-! ### Searching -/

section Search

variable [BEq α] {x : α}

theorem Holds.findFrom?_eq (h : d.Holds xs) (bound : k + count ≤ d.slotCount) :
    d.findFrom? x (d.position k) count =
      ((List.range' k count).map d.position).find? (d.holds x) := by
  induction count generalizing k with
  | zero => rfl
  | succ count ih =>
      rw [Deque.findFrom?_succ, h.next_position (by omega), ih (by omega), List.range'_succ,
        List.map_cons, List.find?_cons]
      cases d.holds x (d.position k) <;> rfl

theorem Holds.findBefore?_eq (h : d.Holds xs) (bound : count ≤ d.slotCount) :
    d.findBefore? x (d.position count) count =
      ((List.range count).map d.position).reverse.find? (d.holds x) := by
  induction count with
  | zero => rfl
  | succ count ih =>
      rw [Deque.findBefore?_succ, h.prev_position (by omega), ih (by omega), List.range_succ,
        List.map_append, List.reverse_append, List.map_singleton, List.reverse_singleton,
        List.singleton_append, List.find?_cons]
      cases d.holds x (d.position count) <;> rfl

/-- The search from the front takes the legs in turn. -/
theorem WellFormed.findSlot?_eq (h : d.WellFormed) (x : α) :
    d.findSlot? x = d.slotTraversal.slots.find? (d.holds x) := by
  have start : d.position 0 = d.head := Circle.forward_zero h.head_lt
  have length := h.holds.length_lt
  rw [← h.holds.length_eq] at length
  rw [h.holds.slots_slotTraversal, Deque.findSlot?_eq, ← start, h.holds.findFrom?_eq (by omega),
    List.range_eq_range']

/-- The search from the back takes them the other way round. -/
theorem WellFormed.findLastSlot?_eq (h : d.WellFormed) (x : α) :
    d.findLastSlot? x = d.slotTraversal.slots.reverse.find? (d.holds x) := by
  have length := h.holds.length_lt
  have behind := h.holds.position_length
  rw [← h.holds.length_eq] at length behind
  rw [h.holds.slots_slotTraversal, Deque.findLastSlot?_eq, ← behind,
    h.holds.findBefore?_eq (Nat.le_of_lt length)]

end Search

/-! ### Clearing -/

theorem clear_eq_clearEach {slots : Slots α} (h : d.Holds xs) (size : slots.size = d.slotCount)
    (bound : k + count ≤ d.slotCount) :
    slots.clear (d.position k) count = slots.clearEach ((List.range' k count).map d.position) := by
  induction count generalizing slots k with
  | zero => rfl
  | succ count ih =>
      have size' : (slots.put (d.position k) none).size = d.slotCount := by
        rw [Slots.size_put, size]
      rw [Slots.clear, size, h.next_position (by omega), ih size' (by omega), List.range'_succ,
        List.map_cons]
      rfl

/-- Clearing empties the slots of the legs. -/
theorem WellFormed.slots_clear (h : d.WellFormed) :
    d.clear.slots = d.slots.clearEach d.slotTraversal.slots := by
  have start : d.position 0 = d.head := Circle.forward_zero h.head_lt
  have length := h.holds.length_lt
  rw [← h.holds.length_eq] at length
  rw [h.holds.slots_slotTraversal, clear, ← start,
    clear_eq_clearEach h.holds (size_slots d) (by omega), List.range_eq_range']

/-! ### Moving into another buffer -/

theorem getElem?_toList_slots {p : Nat} (hp : p < d.slotCount) :
    d.slots.toList[p]? = some (d.slot p) := by
  rw [Array.getElem?_toList, slot, Slots.at?, Array.getElem?_eq_getElem hp]
  rfl

/-- From the front slot on, and then from the beginning, the buffer is read as the circle is. -/
theorem drop_append_take (head_lt : d.head < d.slotCount) :
    d.slots.toList.drop d.head ++ d.slots.toList.take d.head =
      (List.range d.slotCount).map fun k => d.slot (d.position k) := by
  have leading : (d.slots.toList.drop d.head).length = d.slotCount - d.head := List.length_drop
  apply List.ext_getElem?
  intro k
  rw [List.getElem?_append, leading, List.getElem?_drop, List.getElem?_take, List.getElem?_map]
  by_cases inside : k < d.slotCount
  · rw [List.getElem?_range inside, Option.map_some, position, Circle.forward_eq]
    by_cases fits : d.head + k < d.slotCount
    · rw [if_pos (by omega), if_pos fits, getElem?_toList_slots fits]
    · have wraps : k - (d.slotCount - d.head) = d.head + k - d.slotCount := by omega
      rw [if_neg (by omega), if_pos (by omega), if_neg fits, wraps,
        getElem?_toList_slots (by omega)]
  · have beyond : (List.range d.slotCount)[k]? = none := by
      rw [List.getElem?_eq_none]
      simpa using inside
    rw [if_neg (by omega), if_neg (by omega), beyond, Option.map_none]

theorem filterMap_getElem?_range {n : Nat} (h : xs.length ≤ n) :
    (List.range n).filterMap (fun k => xs[k]?) = xs := by
  induction xs generalizing n with
  | nil => simp
  | cons x xs ih =>
      cases n with
      | zero => exact absurd h (Nat.not_succ_le_zero _)
      | succ n =>
          rw [List.range_succ_eq_map, List.filterMap_cons_some List.getElem?_cons_zero,
            List.filterMap_map]
          exact congrArg (x :: ·) (ih (Nat.le_of_succ_le_succ h))

theorem Holds.scan_eq (h : d.Holds xs) : d.scan = xs := by
  have read : ∀ k ∈ List.range d.slotCount, d.slot (d.position k) = xs[k]? := by
    intro k hk
    exact h.slot_position (List.mem_range.1 hk)
  rw [scan, drop_append_take h.head_lt, List.map_congr_left read, List.filterMap_map]
  exact filterMap_getElem?_range h.length_le

/-- Moving the elements into another buffer keeps their order because a scan finds them in order. -/
theorem WellFormed.relayout_eq (h : d.WellFormed) (a : Allocator) (count index : Nat)
    (inserted : List α) :
    d.relayout a count index inserted = d.relayoutByScan a count index inserted := by
  simp only [Deque.relayout_eq, relayoutByScan, h.holds.scan_eq, List.map_append, List.size_toArray,
    List.length_append, List.length_map]

end Deque

end RingDeque
