import RingDeque.Proofs.Positional

/-!
# Insertion and removal at a position undo each other

An insertion counts the elements on both sides of a place before the new one is there, a removal
counts them without the one that goes. So both see the same numbers and move the same side, by one
slot in opposite directions, and what the first has done the second takes back, slot by slot.
`ApartInFront` and `ApartBehind` describe two deques that differ by such a step, in whichever
direction it went.
-/

namespace RingDeque

/-- `large` has one element more than `small`, at `index`, and the elements in front of it are one
slot further to the front. They are fewer than those behind. -/
structure Deque.ApartInFront {α : Type u} (index : Nat) (small large : Deque α) : Prop where
  fewer : index < small.length - index
  slotCount_eq : large.slotCount = small.slotCount
  head_eq : large.head = Circle.prev small.head small.slotCount
  tail_eq : large.tail = small.tail
  kept : ∀ p < small.slotCount, index < Circle.steps large.head p small.slotCount →
    large.slot p = small.slot p

/-- `large` has one element more than `small`, at `index`, and the elements behind it are one slot
further to the back. They are no more than those in front. -/
structure Deque.ApartBehind {α : Type u} (index : Nat) (small large : Deque α) : Prop where
  no_fewer : small.length - index ≤ index
  slotCount_eq : large.slotCount = small.slotCount
  head_eq : large.head = small.head
  tail_eq : large.tail = Circle.next small.tail small.slotCount
  kept : ∀ p < small.slotCount, Circle.steps small.head p small.slotCount < index ∨
    small.length < Circle.steps small.head p small.slotCount → large.slot p = small.slot p

/-- An insertion at `index` within the buffer has moved the end that it names, and no slot on the
other side. -/
def Shift.Names {α : Type u} (shift : Shift) (index : Nat) (d d' : Deque α) : Prop :=
  match shift with
  | .reallocated => False
  | .head => d.ApartInFront index d'
  | .tail => d.ApartBehind index d'

/-- A removal at `index` has moved the end that it names, and no slot on the other side. -/
def Closed.Names {α : Type u} (closed : Closed) (index : Nat) (d d' : Deque α) : Prop :=
  match closed with
  | .head => d'.ApartInFront index d
  | .tail => d'.ApartBehind index d

theorem Shift.Names.slotCount_eq {α : Type u} {shift : Shift} {index : Nat} {d d' : Deque α}
    (h : shift.Names index d d') : d'.slotCount = d.slotCount := by
  cases shift with
  | reallocated => exact h.elim
  | head => exact Deque.ApartInFront.slotCount_eq h
  | tail => exact Deque.ApartBehind.slotCount_eq h

theorem Closed.Names.slotCount_eq {α : Type u} {closed : Closed} {index : Nat} {d d' : Deque α}
    (h : closed.Names index d d') : d'.slotCount = d.slotCount := by
  cases closed with
  | head => exact (Deque.ApartInFront.slotCount_eq h).symm
  | tail => exact (Deque.ApartBehind.slotCount_eq h).symm

namespace Deque

variable {α : Type u} {a : Allocator} {d d' e : Deque α} {x y : α} {xs : List α} {index k : Nat}
variable {shift : Shift} {closed : Closed}

theorem insertIdx_eraseIdx_self (hk : k < xs.length) : (xs.eraseIdx k).insertIdx k xs[k] = xs := by
  have parts : (xs.take k).length = k := List.length_take_of_le (Nat.le_of_lt hk)
  have gap : k ≤ (xs.eraseIdx k).length := by
    rw [List.length_eraseIdx_of_lt hk]
    omega
  rw [← splice_singleton gap, List.eraseIdx_eq_take_drop_succ, List.take_left' parts,
    List.drop_left' parts, List.append_assoc, List.singleton_append, List.getElem_cons_drop,
    List.take_append_drop]

theorem Holds.apartInFront (h : d.Holds xs) (h' : d'.Holds (xs.insertIdx index x))
    (fewer : index < xs.length - index) (head : d'.head = Circle.prev d.head d.slotCount)
    (size : d'.slotCount = d.slotCount) : d.ApartInFront index d' where
  fewer := by rwa [h.length_eq]
  slotCount_eq := size
  head_eq := head
  tail_eq := by
    have total := List.length_insertIdx_of_le_length (show index ≤ xs.length by omega) x
    rw [h'.tail_eq, total, head, size, Circle.forward_prev_succ h.head_lt h.length_lt, h.tail_eq]
  kept := by
    intro p hp behind
    rw [← size] at hp behind
    obtain ⟨j, hj, rfl⟩ := Circle.exists_forward h'.head_lt hp
    rw [Circle.steps_forward h'.head_lt hj] at behind
    -- The same slot is one place further from the earlier front.
    obtain ⟨i, rfl⟩ := Nat.exists_eq_add_one_of_ne_zero (Nat.ne_zero_of_lt behind)
    rw [h'.slot_forward hj, List.getElem?_insertIdx_of_gt behind, Nat.add_sub_cancel, head, size,
      Circle.forward_prev_succ h.head_lt (by omega), h.slot_forward (by omega)]

theorem Holds.apartBehind (h : d.Holds xs) (h' : d'.Holds (xs.insertIdx index x))
    (inside : index ≤ xs.length) (no_fewer : ¬index < xs.length - index) (head : d'.head = d.head)
    (size : d'.slotCount = d.slotCount) : d.ApartBehind index d' where
  no_fewer := by
    rw [h.length_eq]
    omega
  slotCount_eq := size
  head_eq := head
  tail_eq := by
    rw [h'.tail_eq, List.length_insertIdx_of_le_length inside x, head, size,
      ← Circle.next_forward h.head_lt h.length_lt, h.tail_eq]
  kept := by
    intro p hp side
    obtain ⟨j, hj, rfl⟩ := Circle.exists_forward h.head_lt hp
    rw [Circle.steps_forward h.head_lt hj, h.length_eq] at side
    have same : d'.slot (Circle.forward d.head j d.slotCount) = (xs.insertIdx index x)[j]? := by
      rw [← head, ← size]
      exact h'.slot_forward (size ▸ hj)
    rw [same, h.slot_forward hj]
    obtain before | beyond := side
    · exact List.getElem?_insertIdx_of_lt before
    · rw [List.getElem?_insertIdx_of_gt (by omega), List.getElem?_eq_none (by omega),
        List.getElem?_eq_none (by omega)]

/-- Within the buffer an insertion moves the side with fewer elements, the one behind if both have
as many. -/
theorem Holds.fst_insertAt (h : d.Holds xs) (hk : k ≤ xs.length)
    (fits : xs.length + 1 < d.slotCount) :
    (d.insertAt a (d.position k) x).1 =
      .ok (if k < xs.length - k then Shift.head else Shift.tail) := by
  obtain ⟨front, back⟩ := h.steps_position hk
  simp only [Deque.insertAt_eq, front, back]
  rw [if_neg (by omega)]
  split
  · rfl
  · rfl

theorem Holds.fst_delete (h : d.Holds xs) (hk : k < xs.length) :
    (d.delete (d.position k)).1 =
      some (xs[k], if k < xs.length - k - 1 then Closed.head else Closed.tail) := by
  have place : d.slot (d.position k) = some xs[k] := by
    rw [h.slot_position (Nat.lt_trans hk h.length_lt), List.getElem?_eq_getElem hk]
  obtain ⟨front, back⟩ := h.steps_position (Nat.le_of_lt hk)
  simp only [Deque.delete_eq, place, front, back]
  split
  · rfl
  · rfl

theorem Holds.insertAt_names (h : d.Holds xs) (hk : k ≤ xs.length)
    (fits : xs.length + 1 < d.slotCount) :
    ∃ shift d', d.insertAt a (d.position k) x = (.ok shift, d') ∧
      d'.Holds (xs.insertIdx k x) ∧ shift.Names k d d' := by
  obtain ⟨shift, d', inserted, holds, moves⟩ := h.insertAt (a := a) (x := x) hk (.inl fits)
  refine ⟨shift, d', inserted, holds, ?_⟩
  have named := h.fst_insertAt (a := a) (x := x) hk fits
  rw [inserted] at named
  cases named
  by_cases fewer : k < xs.length - k
  · rw [if_pos fewer] at moves ⊢
    exact h.apartInFront holds fewer moves.1 moves.2
  · rw [if_neg fewer] at moves ⊢
    exact h.apartBehind holds hk fewer moves.1 moves.2

theorem Holds.delete_names (h : d.Holds xs) (hk : k < xs.length) :
    ∃ closed d', d.delete (d.position k) = (some (xs[k], closed), d') ∧
      d'.Holds (xs.eraseIdx k) ∧ closed.Names k d d' := by
  obtain ⟨closed, d', removed, holds, size, moves⟩ := h.delete hk
  refine ⟨closed, d', removed, holds, ?_⟩
  have named := h.fst_delete hk
  rw [removed] at named
  cases named
  have restored := h
  rw [← insertIdx_eraseIdx_self hk] at restored
  have length := List.length_eraseIdx_of_lt hk
  by_cases fewer : k < xs.length - k - 1
  · rw [if_pos fewer] at moves ⊢
    have back : d.head = Circle.prev d'.head d'.slotCount := by
      rw [show d'.head = Circle.next d.head d.slotCount from moves, size,
        Circle.prev_next h.head_lt]
    exact holds.apartInFront restored (by omega) back size.symm
  · rw [if_neg fewer] at moves ⊢
    exact holds.apartBehind restored (by omega) (by omega) moves.symm size.symm

/-- An insertion and a removal at the same place, between deques of the same two lengths, have
counted the same elements on both sides. So they name the same end. -/
theorem same_end {small large : Deque α} (length : small.length = e.length)
    (inserted : shift.Names index small large) (removed : closed.Names index d e) :
    shift = .head ∧ closed = .head ∨ shift = .tail ∧ closed = .tail := by
  cases shift with
  | reallocated => exact inserted.elim
  | head =>
      cases closed with
      | head => exact .inl ⟨rfl, rfl⟩
      | tail =>
          have fewer := inserted.fewer
          have no_fewer := removed.no_fewer
          omega
  | tail =>
      cases closed with
      | head =>
          have no_fewer := inserted.no_fewer
          have fewer := removed.fewer
          omega
      | tail => exact .inr ⟨rfl, rfl⟩

/-- What an insertion has done, a removal takes back. -/
theorem head_of_removed (h : d.WellFormed) (he : e.WellFormed) (length : d.length = e.length)
    (inserted : shift.Names index d d') (removed : closed.Names index d' e) : e.head = d.head := by
  obtain ⟨rfl, rfl⟩ | ⟨rfl, rfl⟩ := same_end length inserted removed
  · have size : e.slotCount = d.slotCount := removed.slotCount_eq.trans inserted.slotCount_eq
    have same := removed.head_eq.symm.trans inserted.head_eq
    rw [← Circle.next_prev he.head_lt, same, size, Circle.next_prev h.head_lt]
  · exact removed.head_eq.symm.trans inserted.head_eq

/-- What a removal has done, an insertion takes back. -/
theorem head_of_inserted (removed : closed.Names index d d') (inserted : shift.Names index d' e) :
    e.head = d.head := by
  obtain ⟨rfl, rfl⟩ | ⟨rfl, rfl⟩ := same_end rfl inserted removed
  · exact inserted.head_eq.trans removed.head_eq.symm
  · exact inserted.head_eq.trans removed.head_eq.symm

theorem Holds.delete_insertAt (h : d.Holds xs) (hk : k ≤ xs.length)
    (fits : xs.length + 1 < d.slotCount) :
    ∃ shift closed d', d.insertAt a (d.position k) x = (.ok shift, d') ∧ shift.Names k d d' ∧
      d'.Holds (xs.insertIdx k x) ∧ d'.delete (d'.position k) = (some (x, closed), d) ∧
      closed.Names k d' d := by
  obtain ⟨shift, d', inserted, holds, grown⟩ := h.insertAt_names (a := a) (x := x) hk fits
  have length := List.length_insertIdx_of_le_length hk x
  obtain ⟨closed, e, removed, again, shrunk⟩ := holds.delete_names (k := k) (by omega)
  rw [List.eraseIdx_insertIdx_self] at again
  rw [List.getElem_insertIdx_self] at removed
  have head := head_of_removed h.wellFormed again.wellFormed
    (h.length_eq.trans again.length_eq.symm) grown shrunk
  obtain rfl := again.ext h head (shrunk.slotCount_eq.trans grown.slotCount_eq)
  exact ⟨shift, closed, d', inserted, grown, holds, removed, shrunk⟩

theorem Holds.insertAt_delete (h : d.Holds xs) (hk : k < xs.length) :
    ∃ closed shift d', d.delete (d.position k) = (some (xs[k], closed), d') ∧
      closed.Names k d d' ∧ d'.Holds (xs.eraseIdx k) ∧
      d'.insertAt a (d'.position k) xs[k] = (.ok shift, d) ∧ shift.Names k d' d := by
  obtain ⟨closed, d', removed, holds, shrunk⟩ := h.delete_names hk
  have length := List.length_eraseIdx_of_lt hk
  have fits : (xs.eraseIdx k).length + 1 < d'.slotCount := by
    rw [shrunk.slotCount_eq, length, Nat.sub_add_cancel (Nat.zero_lt_of_lt hk)]
    exact h.length_lt
  obtain ⟨shift, e, inserted, again, grown⟩ :=
    holds.insertAt_names (a := a) (x := xs[k]) (k := k) (by omega) fits
  rw [insertIdx_eraseIdx_self hk] at again
  obtain rfl := again.ext h (head_of_inserted shrunk grown)
    (grown.slotCount_eq.trans shrunk.slotCount_eq)
  exact ⟨closed, shift, d', removed, shrunk, holds, inserted, grown⟩

theorem insert_of_insertAt (inside : index ≤ d.length)
    (inserted : d.insertAt a (d.position index) x = (.ok shift, d')) :
    d.insert a index x = (.ok (), d') := by
  rw [Deque.insert_eq, if_neg (Nat.not_lt_of_le inside), inserted]

theorem removeAt_of_delete (inside : index < d.length)
    (removed : d.delete (d.position index) = (some (x, closed), d')) :
    d.removeAt index = (.ok x, d') := by
  rw [Deque.removeAt_eq, if_pos inside, removed]

/-- An insertion within the buffer and the removal of the element that it has inserted, or a removal
and the insertion of the element that it has removed, restore slots, `head` and `tail`, and no new
buffer is taken. Each of the four calls moves the side with fewer elements, the one behind if both
have as many, and says so; on the other side, and beyond the elements, no slot changes. -/
theorem insert_removeAt_restores (h : d.WellFormed) (a : Allocator) (x : α) (index : Nat) :
    (index ≤ d.length → d.length < d.capacity →
      ∃ shift closed d', d.insertAt a (d.position index) x = (.ok shift, d') ∧
        shift.Names index d d' ∧ d'.delete (d'.position index) = (some (x, closed), d) ∧
        closed.Names index d' d ∧
        d.insert a index x = (.ok (), d') ∧ d'.removeAt index = (.ok x, d)) ∧
    (index < d.length →
      ∃ y closed shift d', d.get? index = some y ∧
        d.delete (d.position index) = (some (y, closed), d') ∧ closed.Names index d d' ∧
        d'.insertAt a (d'.position index) y = (.ok shift, d) ∧ shift.Names index d' d ∧
        d.removeAt index = (.ok y, d') ∧ d'.insert a index y = (.ok (), d)) := by
  have holds := h.holds
  have count := holds.length_eq
  constructor
  · intro inside room
    have total := List.length_insertIdx_of_le_length (show index ≤ d.toList.length by omega) x
    rw [capacity] at room
    obtain ⟨shift, closed, d', inserted, grown, holds', removed, shrunk⟩ :=
      holds.delete_insertAt (a := a) (x := x) (k := index) (by omega) (by omega)
    have inside' : index < d'.length := by
      rw [holds'.length_eq]
      omega
    exact ⟨shift, closed, d', inserted, grown, removed, shrunk, insert_of_insertAt inside inserted,
      removeAt_of_delete inside' removed⟩
  · intro inside
    have within : index < d.toList.length := count ▸ inside
    have total := List.length_eraseIdx_of_lt within
    obtain ⟨closed, shift, d', removed, shrunk, holds', inserted, grown⟩ :=
      holds.insertAt_delete (a := a) within
    have inside' : index ≤ d'.length := by
      rw [holds'.length_eq]
      omega
    refine ⟨_, closed, shift, d', ?_, removed, shrunk, inserted, grown,
      removeAt_of_delete inside removed, insert_of_insertAt inside' inserted⟩
    rw [holds.get?_eq, List.getElem?_eq_getElem within]

/-- With as many elements on either side the ones behind make way for the `9`, around the end of the
buffer. The one in front of the `2` closes the gap that it leaves. -/
theorem insert_removeAt_restores_wrapped :
    let a := Allocator.bounded 8 100
    let d : Deque Nat := ⟨#[some 3, some 4, none, none, some 1, some 2], 4, 2⟩
    let more : Deque Nat := ⟨#[some 9, some 3, some 4, none, some 1, some 2], 4, 3⟩
    let fewer : Deque Nat := ⟨#[some 3, some 4, none, none, none, some 1], 5, 2⟩
    d.WellFormed ∧ 2 ≤ d.length ∧ d.length < d.capacity ∧ 1 < d.length ∧
      (d.insert a 2 9 = (.ok (), more) ∧ d.ApartBehind 2 more ∧ more.removeAt 2 = (.ok 9, d)) ∧
      (d.removeAt 1 = (.ok 2, fewer) ∧ fewer.ApartInFront 1 d ∧
        fewer.insert a 1 2 = (.ok (), d)) := by
  intro a d more fewer
  have ordered : d.WellFormed := isWellFormed_iff.1 (by decide)
  have room : 2 ≤ d.length ∧ d.length < d.capacity := by decide
  have inside : 1 < d.length := by decide
  refine ⟨ordered, room.1, room.2, inside, ?_, ?_⟩
  · obtain ⟨shift, closed, d', insertedAt, grown, -, -, inserted, removed⟩ :=
      (insert_removeAt_restores ordered a 9 2).1 room.1 room.2
    have moved : (d.insertAt a (d.position 2) 9).2 = more := by decide
    have named : (d.insertAt a (d.position 2) 9).1.toOption = some .tail := by decide
    rw [insertedAt] at moved named
    obtain rfl : d' = more := moved
    obtain rfl : shift = .tail := Option.some.inj named
    exact ⟨inserted, grown, removed⟩
  · obtain ⟨y, closed, shift, d', -, deleted, shrunk, -, -, removed, inserted⟩ :=
      (insert_removeAt_restores ordered a 9 1).2 inside
    have moved : d.delete (d.position 1) = (some (2, .head), fewer) := by decide
    have same := deleted.symm.trans moved
    obtain ⟨rfl, rfl⟩ : y = 2 ∧ closed = .head :=
      Prod.mk.inj (Option.some.inj (congrArg Prod.fst same))
    obtain rfl : d' = fewer := congrArg Prod.snd same
    exact ⟨removed, shrunk, inserted⟩

end Deque

end RingDeque
