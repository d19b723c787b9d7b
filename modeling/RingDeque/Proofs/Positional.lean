import RingDeque.Deque.Positional
import RingDeque.Proofs.Ends

/-!
# What insertion and removal at a position do

An insertion opens a gap by moving the elements on one side of it, and a removal closes one. Seen
from the slot where the deque begins afterwards, both sides are where the list says. `Shift.Moves`
and `Closed.Moves` tell which end of the deque went along, which is what a cursor has to know.
-/

namespace RingDeque

/-- What becomes of the place of a deque when an element is inserted. -/
def Shift.Moves {α : Type u} (shift : Shift) (d d' : Deque α) : Prop :=
  match shift with
  | .reallocated => d'.head = 0
  | .head => d'.head = Circle.prev d.head d.slotCount ∧ d'.slotCount = d.slotCount
  | .tail => d'.head = d.head ∧ d'.slotCount = d.slotCount

/-- What becomes of the place of a deque when an element is removed. -/
def Closed.Moves {α : Type u} (closed : Closed) (d d' : Deque α) : Prop :=
  d'.slotCount = d.slotCount ∧
    match closed with
    | .head => d'.head = Circle.next d.head d.slotCount
    | .tail => d'.head = d.head

/-- The elements behind the gap come up, and the places are counted from the same slot. -/
theorem Closed.Moves.position_tail {α : Type u} {d d' : Deque α} (h : Closed.tail.Moves d d') :
    d'.position = d.position := by
  obtain ⟨size, head⟩ := h
  exact Deque.position_congr head size

/-- The elements in front of the gap move, and the places are counted from one slot later. -/
theorem Closed.Moves.position_head {α : Type u} {d d' : Deque α} {k : Nat}
    (h : Closed.head.Moves d d') (hd : d.head < d.slotCount) (hk : k < d.slotCount) :
    d'.position k = d.position (k + 1) := by
  obtain ⟨size, head⟩ := h
  rw [Deque.position, Deque.position, show d'.head = Circle.next d.head d.slotCount from head, size,
    Circle.forward_next hd hk]

namespace Deque

variable {α : Type u} {a : Allocator} {d : Deque α} {x : α} {xs ys : List α} {index k p : Nat}

/-- What stands where after `ys` was put in front of the element at `k`. -/
theorem getElem?_splice (hk : k ≤ xs.length) (j : Nat) :
    (xs.take k ++ ys ++ xs.drop k)[j]? =
      if j < k then xs[j]? else if j < k + ys.length then ys[j - k]? else xs[j - ys.length]? := by
  rw [List.append_assoc, List.getElem?_append, List.getElem?_append, List.length_take_of_le hk,
    List.getElem?_drop]
  split
  · rw [List.getElem?_take_of_lt ‹_›]
  · split
    · rw [if_pos (by omega)]
    · rw [if_neg (by omega), show k + (j - k - ys.length) = j - ys.length by omega]

theorem length_splice (ys : List α) (hk : k ≤ xs.length) :
    (xs.take k ++ ys ++ xs.drop k).length = xs.length + ys.length := by
  simp only [List.length_append, List.length_take, List.length_drop]
  omega

theorem splice_singleton (hk : k ≤ xs.length) :
    xs.take k ++ [x] ++ xs.drop k = xs.insertIdx k x := by
  apply List.ext_getElem?
  intro j
  rw [getElem?_splice hk, List.getElem?_insertIdx]
  grind

/-- The elements in front of the gap move to the front, and the view then begins that much
earlier. -/
theorem Holds.insert_front (h : d.Holds xs) (ys : List α) (hk : k ≤ xs.length)
    (hl : xs.length + ys.length < d.slotCount) :
    Holds ⟨(d.slots.shiftFrontward d.head ys.length k).fill
        (Circle.forward (Circle.backward d.head ys.length d.slotCount) k d.slotCount) ys,
      Circle.backward d.head ys.length d.slotCount, d.tail⟩ (xs.take k ++ ys ++ xs.drop k) := by
  have front : Circle.backward d.head ys.length d.slotCount < d.slotCount :=
    Circle.backward_lt h.head_lt (by omega)
  have start : Circle.forward (Circle.backward d.head ys.length d.slotCount) (0 + ys.length)
      d.slotCount = d.head := by
    rw [Nat.zero_add, Circle.forward_backward h.head_lt (by omega)]
  have seen {j} (hj : j < d.slotCount) := h.view_backward (n := ys.length) (by omega) hj
  have shifted {j} (hj : j < d.slotCount) := Slots.view_shiftFrontward 0 ys.length k
    (size_slots d) front (by omega)
    (fun i _ hi _ => by rw [seen (by omega), if_pos (by omega)]) hj
  have size : (d.slots.shiftFrontward d.head ys.length k).size = d.slotCount :=
    Slots.size_shiftFrontward ..
  have length := length_splice ys hk
  refine holds_mk ((Slots.size_fill ..).trans size) front (by omega) ?_ ?_
  · rw [length, Nat.add_comm, Circle.forward_backward_add h.head_lt (by omega), h.tail_eq]
  · intro j hj
    rw [start] at shifted
    rw [Slots.view_fill k ys size front (by omega) hj, shifted hj, getElem?_splice hk]
    by_cases before : j < k
    · rw [if_neg (by omega), if_pos (by omega), if_pos before, seen (by omega), if_neg (by omega),
        Nat.add_sub_cancel]
    · rw [if_neg before]
      by_cases inside : j < k + ys.length
      · rw [if_pos (by omega), if_pos inside]
      · rw [if_neg (by omega), if_neg (by omega), if_neg (by omega), if_neg inside, seen hj,
          if_neg (by omega)]

/-- The elements behind the gap move to the back, and `tail` with them. -/
theorem Holds.insert_back (h : d.Holds xs) (ys : List α) (hk : k ≤ xs.length)
    (hl : xs.length + ys.length < d.slotCount) :
    Holds ⟨(d.slots.shiftBackward (d.position k) ys.length (xs.length - k)).fill (d.position k) ys,
      d.head, Circle.forward d.tail ys.length d.slotCount⟩ (xs.take k ++ ys ++ xs.drop k) := by
  have shifted {j} (hj : j < d.slotCount) := Slots.view_shiftBackward k ys.length
    (xs.length - k) (size_slots d) h.head_lt (by omega)
    (fun i _ _ _ => by rw [h.view_eq i (by omega), List.getElem?_eq_none (by omega)]) hj
  have size : (d.slots.shiftBackward (d.position k) ys.length (xs.length - k)).size =
      d.slotCount := Slots.size_shiftBackward ..
  have length := length_splice ys hk
  refine holds_mk ((Slots.size_fill ..).trans size) h.head_lt (by omega) ?_ ?_
  · rw [length, h.tail_eq, Circle.forward_forward h.head_lt (by omega)]
  · intro j hj
    rw [position] at size ⊢
    rw [Slots.view_fill k ys size h.head_lt (by omega) hj, shifted hj, getElem?_splice hk]
    by_cases before : j < k
    · rw [if_neg (by omega), if_neg (by omega), if_neg (by omega), if_pos before, h.view_eq j hj]
    · rw [if_neg before]
      by_cases inside : j < k + ys.length
      · rw [if_pos (by omega), if_pos inside]
      · rw [if_neg (by omega), if_neg inside]
        by_cases moved : j < xs.length + ys.length
        · rw [if_pos (by omega), h.view_eq _ (by omega)]
        · rw [if_neg (by omega), if_neg (by omega), h.view_eq j hj,
            List.getElem?_eq_none (by omega), List.getElem?_eq_none (by omega)]

/-- How many elements stand on either side of a place. -/
theorem Holds.steps_position (h : d.Holds xs) (hk : k ≤ xs.length) :
    Circle.steps d.head (d.position k) d.slotCount = k ∧
      Circle.steps (d.position k) d.tail d.slotCount = xs.length - k := by
  have length := h.length_lt
  rw [h.tail_eq, position]
  exact ⟨Circle.steps_forward h.head_lt (by omega),
    Circle.steps_forward_forward h.head_lt hk h.length_lt⟩

theorem Holds.insertAt (h : d.Holds xs) (hk : k ≤ xs.length) (hr : d.Room a (xs.length + 1)) :
    ∃ shift d', d.insertAt a (d.position k) x = (.ok shift, d') ∧ d'.Holds (xs.insertIdx k x) ∧
      shift.Moves d d' := by
  have length := h.length_lt
  obtain ⟨front, back⟩ := h.steps_position hk
  simp only [Deque.insertAt_eq, front, back]
  split
  · next full =>
      obtain ⟨size, hsize, hg⟩ := (room_iff_of_full (by omega) rfl).1 hr
      obtain ⟨d', hd', holds, head, -⟩ := h.relayout_of_granted k [x] hg
        (by have := (le_of_grownSlotCount hsize).1; simp; omega)
      rw [splice_singleton hk] at holds
      exact ⟨.reallocated, d', by rw [hsize]; simp only [hd'], holds, head⟩
  · split
    · next fewer =>
        have moved := h.insert_front [x] hk (by simp; omega)
        rw [splice_singleton hk, List.length_singleton, Circle.backward_one] at moved
        have place : Circle.prev (d.position k) d.slotCount =
            Circle.forward (Circle.prev d.head d.slotCount) k d.slotCount := by
          rw [position, ← Circle.forward_prev_succ h.head_lt (by omega),
            Circle.prev_forward_succ (Circle.prev_lt h.head_lt) (by omega)]
        rw [place]
        exact ⟨.head, _, rfl, moved, rfl, (Slots.size_put ..).trans (Slots.size_shiftFrontward ..)⟩
    · have moved := h.insert_back [x] hk (by simp; omega)
      rw [splice_singleton hk, List.length_singleton, Circle.forward_one h.tail_lt] at moved
      exact ⟨.tail, _, rfl, moved, rfl, (Slots.size_put ..).trans (Slots.size_shiftBackward ..)⟩

theorem Holds.insertAt_refused (h : d.Holds xs) (hk : k ≤ xs.length)
    (hr : ¬d.Room a (xs.length + 1)) :
    ∃ e, NoRoom e ∧ d.insertAt a (d.position k) x = (.error e, d) := by
  have full := h.not_full_of_not_room hr
  obtain ⟨front, back⟩ := h.steps_position hk
  simp only [Deque.insertAt_eq, front, back]
  rw [if_pos (by omega)]
  cases answer : d.grownSlotCount a 1 with
  | error e => exact ⟨e, noRoom_of_grownSlotCount answer, rfl⟩
  | ok size =>
      rw [room_iff_of_full full rfl] at hr
      have refused : a.grants size = false := by
        cases granted : a.grants size with
        | false => rfl
        | true => exact absurd ⟨size, answer, granted⟩ hr
      exact ⟨_, ⟨size, rfl⟩, by simp only [relayout_of_refused refused]⟩

/-- The elements in front of the gap move over it, and the view then begins one slot later. -/
theorem Holds.delete_front (h : d.Holds xs) (hk : k < xs.length) :
    Holds ⟨(d.slots.put (d.position k) none).shiftBackward d.head 1 k,
      Circle.next d.head d.slotCount, d.tail⟩ (xs.eraseIdx k) := by
  have length := h.length_lt
  have size : (d.slots.put (d.position k) none).size = d.slotCount := Slots.size_put ..
  have emptied {j} (hj : j < d.slotCount) := Slots.view_put (i := k) (size_slots d) h.head_lt
    (by omega) hj none
  have shifted {j} (hj : j < d.slotCount) :=
    Slots.view_shiftBackward 0 1 k size h.head_lt (by omega)
    (fun i _ _ _ => by rw [position, emptied (by omega), if_pos (by omega)]) hj
  rw [Circle.forward_zero h.head_lt] at shifted
  have size' := (Slots.size_shiftBackward (d.slots.put (d.position k) none) d.head 1 k).trans size
  have erased : (xs.eraseIdx k).length = xs.length - 1 := List.length_eraseIdx_of_lt hk
  refine holds_mk size' (Circle.next_lt h.head_lt) (by omega) ?_ ?_
  · rw [erased, Circle.forward_next h.head_lt (by omega), Nat.sub_add_cancel (by omega), h.tail_eq]
  · intro j hj
    rw [Slots.view_next size' h.head_lt hj, List.getElem?_eraseIdx]
    by_cases around : j + 1 < d.slotCount
    · rw [shifted around, position, emptied (by omega), emptied around]
      by_cases before : j < k
      · rw [if_pos (by omega), if_neg (by omega), if_pos before, Nat.add_sub_cancel,
          h.view_eq j hj]
      · rw [if_neg (by omega), if_neg (by omega), if_neg (by omega), if_neg before,
          h.view_eq _ around]
    · have last : j + 1 = d.slotCount := by omega
      rw [if_neg (show ¬j < k by omega), List.getElem?_eq_none (show xs.length ≤ j + 1 by omega),
        last, Slots.view_size size' h.head_lt, shifted h.slotCount_pos, position,
        emptied h.slotCount_pos, if_neg (by omega)]
      by_cases first : k = 0
      · rw [if_neg (by omega), if_pos first.symm]
      · rw [if_pos (by omega)]

/-- The elements behind the gap come up, and `tail` with them. -/
theorem Holds.delete_back (h : d.Holds xs) (hk : k < xs.length) :
    Holds ⟨(d.slots.put (d.position k) none).shiftFrontward
        (Circle.next (d.position k) d.slotCount) 1 (xs.length - k - 1),
      d.head, Circle.prev d.tail d.slotCount⟩ (xs.eraseIdx k) := by
  have length := h.length_lt
  have size : (d.slots.put (d.position k) none).size = d.slotCount := Slots.size_put ..
  have emptied {j} (hj : j < d.slotCount) := Slots.view_put (i := k) (size_slots d) h.head_lt
    (by omega) hj none
  have shifted {j} (hj : j < d.slotCount) := Slots.view_shiftFrontward k 1
    (xs.length - k - 1) size h.head_lt (by omega)
    (fun i _ _ _ => by rw [position, emptied (by omega), if_pos (by omega)]) hj
  have behind : Circle.next (d.position k) d.slotCount =
      Circle.forward d.head (k + 1) d.slotCount := by
    rw [position, Circle.next_forward h.head_lt (by omega)]
  have erased : (xs.eraseIdx k).length = xs.length - 1 := List.length_eraseIdx_of_lt hk
  refine holds_mk ((Slots.size_shiftFrontward ..).trans size) h.head_lt (by omega) ?_ ?_
  · have last := Circle.prev_forward_succ (k := xs.length - 1) h.head_lt (by omega)
    rwa [Nat.sub_add_cancel (by omega), ← h.tail_eq, ← erased] at last
  · intro j hj
    rw [behind, shifted hj, position, emptied hj, List.getElem?_eraseIdx, h.view_eq j hj]
    by_cases before : j < k
    · rw [if_neg (by omega), if_neg (by omega), if_neg (by omega), if_pos before]
    · rw [if_neg before]
      by_cases moved : j < xs.length - 1
      · rw [if_pos (by omega), emptied (by omega), if_neg (by omega), h.view_eq _ (by omega)]
      · rw [if_neg (by omega), List.getElem?_eq_none (show xs.length ≤ j + 1 by omega)]
        by_cases gap : j = k
        · rw [if_neg (by omega), if_pos gap]
        · rw [if_neg gap]
          by_cases last : j = xs.length - 1
          · rw [if_pos (by omega)]
          · rw [if_neg (by omega), List.getElem?_eq_none (by omega)]

/-- The gap is closed by the side with fewer elements, the one behind it if both have as many. -/
theorem Holds.delete (h : d.Holds xs) (hk : k < xs.length) :
    ∃ closed d', d.delete (d.position k) = (some (xs[k], closed), d') ∧
      d'.Holds (xs.eraseIdx k) ∧ closed.Moves d d' := by
  have place : d.slot (d.position k) = some xs[k] := by
    rw [h.slot_position (Nat.lt_trans hk h.length_lt), List.getElem?_eq_getElem hk]
  obtain ⟨front, back⟩ := h.steps_position (Nat.le_of_lt hk)
  simp only [Deque.delete_eq, place, front, back]
  split
  · exact ⟨.head, _, rfl, h.delete_front hk,
      (Slots.size_shiftBackward ..).trans (Slots.size_put ..), rfl⟩
  · exact ⟨.tail, _, rfl, h.delete_back hk,
      (Slots.size_shiftFrontward ..).trans (Slots.size_put ..), rfl⟩

/-- There is nothing to remove from a slot that is free or no slot of the buffer. -/
theorem delete_of_free (hp : d.slot p = none) : d.delete p = (none, d) := by
  rw [Deque.delete_eq, hp]

/-- Whatever slot is named, either nothing happens or an element goes. -/
theorem Holds.delete_any (h : d.Holds xs) (p : Nat) :
    d.delete p = (none, d) ∨ ∃ k, ∃ hk : k < xs.length, ∃ closed d',
      d.delete p = (some (xs[k], closed), d') ∧ d'.Holds (xs.eraseIdx k) := by
  by_cases hp : p < d.slotCount
  · obtain ⟨k, hk, rfl⟩ := Circle.exists_forward h.head_lt hp
    by_cases inside : k < xs.length
    · obtain ⟨closed, d', hd', holds, -⟩ := h.delete inside
      exact .inr ⟨k, inside, closed, d', hd', holds⟩
    · refine .inl (delete_of_free ?_)
      rw [h.slot_forward hk, List.getElem?_eq_none (Nat.le_of_not_lt inside)]
  · exact .inl (delete_of_free (slot_eq_none_of_le (Nat.le_of_not_lt hp)))

theorem Holds.get (h : d.Holds xs) (index : Nat) :
    d.get index = match xs[index]? with
      | some x => .ok x
      | none => .error (.indexOutOfBounds index xs.length) := by
  rw [Deque.get_eq, h.get?_eq, outOfBounds, h.length_eq]
  split
  · next inside => rw [List.getElem?_eq_getElem inside]
  · next outside => rw [List.getElem?_eq_none (Nat.le_of_not_lt outside)]

theorem Holds.set (h : d.Holds xs) (index : Nat) :
    ∃ d', d.set index x = (match xs[index]? with
      | some y => .ok y
      | none => .error (.indexOutOfBounds index xs.length), d') ∧ d'.Holds (xs.set index x) := by
  rw [Deque.set_eq, outOfBounds, h.length_eq]
  split
  · next inside =>
      obtain ⟨d', hd', holds⟩ := h.replaceSlot (x := x) (Nat.lt_trans inside h.length_lt)
      rw [List.getElem?_eq_getElem inside] at hd' ⊢
      exact ⟨d', by rw [hd'], holds⟩
  · next outside =>
      have beyond := Nat.le_of_not_lt outside
      rw [List.getElem?_eq_none beyond, List.set_eq_of_length_le beyond]
      exact ⟨d, rfl, h⟩

theorem Holds.replace? (h : d.Holds xs) (index : Nat) :
    ∃ d', d.replace? index x = (xs[index]?, d') ∧ d'.Holds (xs.set index x) := by
  rw [Deque.replace?, h.length_eq]
  split
  · next inside => exact h.replaceSlot (Nat.lt_trans inside h.length_lt)
  · next outside =>
      have beyond := Nat.le_of_not_lt outside
      rw [List.getElem?_eq_none beyond, List.set_eq_of_length_le beyond]
      exact ⟨d, rfl, h⟩

theorem Holds.insert (h : d.Holds xs) (hi : index ≤ xs.length) (hr : d.Room a (xs.length + 1)) :
    ∃ d', d.insert a index x = (.ok (), d') ∧ d'.Holds (xs.insertIdx index x) := by
  obtain ⟨shift, d', hd', holds, -⟩ := h.insertAt (x := x) hi hr
  rw [Deque.insert_eq, h.length_eq, if_neg (by omega), hd']
  exact ⟨d', rfl, holds⟩

theorem Holds.insert_refused (h : d.Holds xs) (hi : index ≤ xs.length)
    (hr : ¬d.Room a (xs.length + 1)) :
    ∃ e, NoRoom e ∧ d.insert a index x = (.error e, d) := by
  obtain ⟨e, he, hd'⟩ := h.insertAt_refused (x := x) hi hr
  rw [Deque.insert_eq, h.length_eq, if_neg (by omega), hd']
  exact ⟨e, he, rfl⟩

theorem Holds.insert_outOfBounds (h : d.Holds xs) (hi : xs.length < index) :
    d.insert a index x = (.error (.indexOutOfBounds index xs.length), d) := by
  rw [Deque.insert_eq, outOfBounds, h.length_eq, if_pos hi]

theorem Holds.removeAt (h : d.Holds xs) (index : Nat) :
    ∃ d', d.removeAt index = (match xs[index]? with
      | some x => .ok x
      | none => .error (.indexOutOfBounds index xs.length), d') ∧
      d'.Holds (xs.eraseIdx index) := by
  rw [Deque.removeAt_eq, outOfBounds, h.length_eq]
  split
  · next inside =>
      obtain ⟨closed, d', hd', holds, -⟩ := h.delete inside
      rw [List.getElem?_eq_getElem inside, hd']
      exact ⟨d', rfl, holds⟩
  · next outside =>
      have beyond := Nat.le_of_not_lt outside
      rw [List.getElem?_eq_none beyond, List.eraseIdx_of_length_le beyond]
      exact ⟨d, rfl, h⟩

theorem Holds.removeChosen (h : d.Holds xs) (choose : Nat → Nat) :
    ∃ index, (d.removeChosen choose).2.Holds (xs.eraseIdx index) := by
  rw [Deque.removeChosen]
  split
  · exact ⟨xs.length, by rwa [List.eraseIdx_of_length_le (Nat.le_refl _)]⟩
  · refine ⟨choose d.length, ?_⟩
    obtain ⟨d', hd', holds⟩ := h.removeAt (choose d.length)
    rw [hd']
    split <;> simp_all

end Deque

end RingDeque
