import RingDeque.Proofs.Insertion

/-!
# Inserting many elements at once

The elements that an insertion of many leaves are those that one insertion after the other would
leave, and the place of the new ones decides which of the old ones move. While the buffer is large
enough those are on one side only. The others stay in their slots, although their numbers may change
(`Placed`). A larger buffer begins with the front element.
-/

namespace RingDeque.Deque

variable {α : Type u} {a : Allocator} {d d' : Deque α} {xs ys : List α} {index count : Nat}

/-- Where the elements of `d` are in `d'`, when so many were inserted at `index`. -/
structure Placed (index count : Nat) (d d' : Deque α) : Prop where
  replaced_iff : d'.slotCount ≠ d.slotCount ↔ d.capacity < d.length + count
  replaced : d.capacity < d.length + count → d'.head = 0 ∧ d'.tail = d.length + count
  /-- Fewer elements are in front of the new ones: those behind stay. -/
  front : d.length + count ≤ d.capacity → index < d.length - index →
    d'.tail = d.tail ∧ d'.head = Circle.backward d.head count d.slotCount ∧
      ∀ k, index ≤ k → k < d.length →
        d'.position (k + count) = d.position k ∧ d'.slot (d.position k) = d.slot (d.position k)
  /-- No fewer elements are in front of the new ones: those in front stay. -/
  back : d.length + count ≤ d.capacity → ¬index < d.length - index →
    d'.head = d.head ∧ d'.tail = Circle.forward d.tail count d.slotCount ∧
      ∀ k < index, d'.position k = d.position k ∧ d'.slot (d.position k) = d.slot (d.position k)

/-- Insert `xs` one by one, the first at `index`, the next behind it, and so on, while there is
room. -/
def insertEach (a : Allocator) (index : Nat) : List α → Deque α → Except Error Unit × Deque α
  | [], d => (.ok (), d)
  | x :: xs, d =>
    match d.insert a index x with
    | (.error e, d) => (.error e, d)
    | (.ok (), d) => insertEach a (index + 1) xs d

/-- The elements on the side that moves are found where the list says, and so are those on the other
side. -/
theorem Holds.placed (h : d.Holds xs) (hi : index ≤ xs.length)
    (h' : d'.Holds (xs.take index ++ ys ++ xs.drop index)) (room : MadeRoom index ys.length d d') :
    Placed index ys.length d d' := by
  have length := h.length_lt
  have count := h.length_eq
  have total := length_splice ys hi
  have tail := h'.tail_eq
  rw [total] at tail
  have capacity : d.capacity + 1 = d.slotCount := Nat.sub_add_cancel h.slotCount_pos
  cases room with
  | replaced beyond larger head =>
      refine ⟨⟨fun _ => by omega, fun _ => by omega⟩, fun _ => ⟨head, ?_⟩, fun fits =>
        ?_, fun fits => ?_⟩
      · have fits := h'.length_lt
        rw [total] at fits
        rw [tail, head, Circle.zero_forward fits, count]
      · omega
      · omega
  | front fits fewer size head =>
      refine ⟨⟨fun grown => absurd size grown, fun beyond => by omega⟩, fun beyond => by omega,
        fun _ _ => ⟨?_, head, ?_⟩, fun _ more => absurd fewer more⟩
      · rw [tail, head, size, Nat.add_comm, Circle.forward_backward_add h.head_lt (by omega),
          h.tail_eq]
      · intro k behind hk
        have place : d'.position (k + ys.length) = d.position k := by
          rw [position, position, head, size, Nat.add_comm,
            Circle.forward_backward_add h.head_lt (by omega)]
        refine ⟨place, ?_⟩
        rw [← place, h'.slot_position (by omega), place, h.slot_position (by omega),
          getElem?_splice hi, if_neg (by omega), if_neg (by omega), Nat.add_sub_cancel]
  | back fits more size head =>
      refine ⟨⟨fun grown => absurd size grown, fun beyond => by omega⟩, fun beyond => by omega,
        fun _ fewer => absurd fewer more, fun _ _ => ⟨head, ?_, ?_⟩⟩
      · rw [tail, head, size, ← Circle.forward_forward h.head_lt (by omega), h.tail_eq]
      · intro k before
        have place : d'.position k = d.position k := congrFun (position_congr head size) k
        refine ⟨place, ?_⟩
        rw [← place, h'.slot_position (by omega), place, h.slot_position (by omega),
          getElem?_splice hi, if_pos before]

/-- One insertion after the other leaves all elements in one run, unless there is no more room at
some point. -/
theorem Holds.insertEach (h : d.Holds xs) (ys : List α) (hi : index ≤ xs.length) :
    (∃ d', d.insertEach a index ys = (.ok (), d') ∧
      d'.Holds (xs.take index ++ ys ++ xs.drop index)) ∨
    ∃ e d' count, d.insertEach a index ys = (.error e, d') ∧ NoRoom e ∧
      count ≤ xs.length + ys.length ∧ ¬d'.Room a count := by
  induction ys generalizing d xs index with
  | nil => exact .inl ⟨d, rfl, by simpa using h⟩
  | cons y ys ih =>
      rw [Deque.insertEach]
      by_cases room : d.Room a (xs.length + 1)
      · obtain ⟨d₁, inserted, h₁⟩ := h.insert (x := y) hi room
        rw [inserted]
        have length : (xs.insertIdx index y).length = xs.length + 1 :=
          List.length_insertIdx_of_le_length hi y
        have before : (xs.take index ++ [y]).length = index + 1 := by
          rw [List.length_append, List.length_take_of_le hi, List.length_singleton]
        have parts : (xs.insertIdx index y).take (index + 1) ++ ys ++
            (xs.insertIdx index y).drop (index + 1) =
              xs.take index ++ y :: ys ++ xs.drop index := by
          rw [← splice_singleton hi, List.take_left' before, List.drop_left' before]
          simp
        have rest := ih h₁ (show index + 1 ≤ (xs.insertIdx index y).length by omega)
        rw [parts, length] at rest
        obtain done | ⟨e, d', count, refused, noRoom, bound, full⟩ := rest
        · exact .inl done
        · exact .inr ⟨e, d', count, refused, noRoom, by rw [List.length_cons]; omega, full⟩
      · obtain ⟨e, noRoom, refused⟩ := h.insert_refused (x := y) hi room
        rw [refused]
        exact .inr ⟨e, d, xs.length + 1, rfl, noRoom, by rw [List.length_cons]; omega, room⟩

/-- Every list for which there is room comes to stand in front of the element at `index`. One
insertion after the other leaves the same elements, or stops for want of room, which does not happen
with an allocator that has all the slots it may give. A larger buffer is taken exactly if the
elements are more than the old one can hold. Otherwise the side with fewer elements moves, the one
behind if both have as many, and the elements on the other side stay in their slots. To add elements
at the back is to insert them there. -/
theorem insertAll_eq_insertEach (h : d.WellFormed) (hi : index ≤ d.length)
    (room : d.Room a (d.length + ys.length)) :
    ∃ d', d.insertAll a index (.ofList ys) = (.ok (.ok (!ys.isEmpty)), d') ∧ d'.WellFormed ∧
      d'.toList = d.toList.take index ++ ys ++ d.toList.drop index ∧
      Placed index ys.length d d' ∧
      ((d.insertEach a index ys).1 = .ok () → (d.insertEach a index ys).2.toList = d'.toList) ∧
      (∀ e, (d.insertEach a index ys).1 = .error e → NoRoom e) ∧
      ((∀ n ≤ a.maxSlots, a.grants n = true) → d.length + ys.length < a.maxSlots →
        (d.insertEach a index ys).1 = .ok ()) ∧
      (index = d.length → d.tryAddAll a (.ofList ys) = (.ok (.ok (!ys.isEmpty)), d') ∧
        d.addAll a (.ofList ys) = (.ok (!ys.isEmpty), d')) := by
  have holds := h.holds
  have count := holds.length_eq
  rw [count] at hi room
  obtain ⟨d', inserted, holds', madeRoom⟩ := holds.insertRange_madeRoom ys hi room
  refine ⟨d', ?_, holds'.wellFormed, holds'.toList_eq, holds.placed hi holds' madeRoom, ?_⟩
  · rw [insertAll_eq, if_neg (by omega), Trace.complete_ofList]
    dsimp only
    rw [inserted]
  rw [← and_assoc, ← and_assoc]
  constructor
  · obtain ⟨d₁, done, holds₁⟩ | ⟨e, d₁, needed, refused, noRoom, bound, full⟩ :=
      holds.insertEach (a := a) ys hi
    · rw [done]
      exact ⟨⟨fun _ => holds₁.toList_eq.trans holds'.toList_eq.symm, nofun⟩, fun _ _ => rfl⟩
    · rw [refused]
      refine ⟨⟨nofun, ?_⟩, fun generous few => ?_⟩
      · rintro e' ⟨⟩
        exact noRoom
      · exact absurd (room_of_lt generous (by omega)) full
  · rintro rfl
    have added : d.tryAddAll a (.ofList ys) = (.ok (.ok (!ys.isEmpty)), d') := by
      rw [tryAddAll_eq, Trace.complete_ofList]
      dsimp only
      rw [inserted]
    refine ⟨added, ?_⟩
    rw [addAll, added]
    rfl

/-- The one element in front of the new ones goes around the beginning of the buffer, and those
behind stay. -/
theorem insertAll_eq_insertEach_front :
    let a := Allocator.bounded 8 100
    let ys : List Nat := [8, 9]
    let d : Deque Nat := ⟨#[some 2, some 3, some 4, none, none, none, none, some 1], 7, 3⟩
    let d' : Deque Nat := ⟨#[some 2, some 3, some 4, none, none, some 1, some 8, some 9], 5, 3⟩
    d.WellFormed ∧ 1 ≤ d.length ∧ d.Room a (d.length + ys.length) ∧
      (d.insertAll a 1 (.ofList ys)).2 = d' ∧
      d'.toList = d.toList.take 1 ++ ys ++ d.toList.drop 1 ∧ Placed 1 2 d d' := by
  intro a ys d d'
  have ordered : d.WellFormed := isWellFormed_iff.1 (by decide)
  have inside : 1 ≤ d.length := by decide
  have room : d.Room a (d.length + ys.length) := .inl (by decide)
  obtain ⟨e, inserted, -, elements, placed, -⟩ := insertAll_eq_insertEach ordered inside room
  have moved : (d.insertAll a 1 (.ofList ys)).2 = d' := by decide
  obtain rfl : e = d' := by rwa [inserted] at moved
  exact ⟨ordered, inside, room, moved, elements, placed⟩

end RingDeque.Deque
