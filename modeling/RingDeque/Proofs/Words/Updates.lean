import RingDeque.Allocator
import RingDeque.Proofs.BufferSize
import RingDeque.Proofs.Words.Slots

/-!
# Updates on words

Layout, growth, the two ends, access by position and search. A deque in order whose buffer the
allocator could have given has less than `2 ^ 63` slots, so positions and distances add up to words.
Sums in which an argument takes part are made only after it was compared with the length, or are
refused, or stop at the largest word.

Deques in the middle of an addition are not in order, since they may be full. What growth needs is
less: that the front is inside the buffer.
-/

namespace RingDeque

theorem Allocator.maxSlots_lt (a : Allocator) : a.maxSlots < 2 ^ 63 :=
  Nat.lt_of_le_of_lt a.maxSlots_le (by decide)

namespace Deque

variable {α : Type u} {a : Allocator} {d d' : Deque α} {xs ys : List α} {x : α}
variable {needed count index k p : Nat}

/-! ### Layout -/

theorem WellFormed.computes_length (h : d.WellFormed) (hm : d.slotCount < 2 ^ 63) :
    d.lengthOnWords.Computes d.length :=
  Circle.computes_steps h.head_lt h.tail_lt hm

theorem WellFormed.computes_position (h : d.WellFormed) (hm : d.slotCount < 2 ^ 63)
    (hi : index ≤ d.slotCount) :
    (d.positionOnWords index).Computes (d.position index) :=
  Circle.computes_forward h.head_lt hi hm

/-! ### Growth -/

theorem computes_jump (hm : d.slotCount < 2 ^ 63) : d.jumpOnWords.Computes d.jump := by
  refine .of_inRange ?_ rfl
  unfold jumpOnWords
  split
  · exact .add (by omega) (.result _)
  · exact .result _

theorem computes_grownSlotCount (hm : d.slotCount < 2 ^ 63) (needed : Nat) :
    (d.grownSlotCountOnWords a needed).Computes (d.grownSlotCount a needed) := by
  refine .of_inRange ?_ rfl
  unfold grownSlotCountOnWords
  split
  · exact .result _
  · exact .bind (computes_jump hm) (.result _)

theorem computes_grow (head : d.head < d.slotCount) (hm : d.slotCount < 2 ^ 63) (needed : Nat) :
    (d.growOnWords a needed).Computes (d.grow a needed) := by
  have bound := a.maxSlots_lt
  refine .of_inRange (.bind (computes_grownSlotCount hm needed) ?_) rfl
  cases answer : d.grownSlotCount a needed with
  | error e => exact .result _
  | ok count =>
      obtain ⟨larger, bounded⟩ := le_of_grownSlotCount answer
      have room : (d.slots ++ Slots.empty (count - d.slotCount) : Slots α).size = count := by
        rw [Array.size_append, Slots.size_empty]
        exact Nat.add_sub_cancel' (show d.slotCount ≤ count by omega)
      refine .sub (by omega) (by omega) ?_
      dsimp only
      split
      · split
        · refine .sub (by omega) (by omega) (.bind (Slots.computes_shiftBackward ?_ ?_ ?_ ?_) ?_)
          · omega
          · omega
          · omega
          · omega
          · exact .add (by omega) (.result _)
        · exact .result _
      · exact .result _

/-- A refused growth leaves the deque as it was. -/
theorem eq_of_grow_eq_error {e : Error} (h : d.grow a needed = (.error e, d')) : d' = d := by
  cases answer : d.grownSlotCount a needed with
  | error e =>
      rw [grow_of_error answer] at h
      exact (congrArg Prod.snd h).symm
  | ok count =>
      cases granted : a.grants count with
      | true =>
          rw [grow_of_granted answer granted] at h
          cases congrArg Prod.fst h
      | false =>
          rw [grow_of_not_granted answer granted] at h
          exact (congrArg Prod.snd h).symm

theorem Holds.computes_relayout (h : d.Holds xs) (hm : d.slotCount < 2 ^ 63) (ys : List α)
    (hy : ys.length < 2 ^ 63) (count index : Nat) :
    (d.relayoutOnWords a count index ys).Computes (d.relayout a count index ys) := by
  have length := h.length_lt
  have total :
    (d.toList.take index ++ ys ++ d.toList.drop index).length = xs.length + ys.length := by
    rw [h.toList_eq]
    simp only [List.length_append, List.length_take, List.length_drop]
    omega
  refine .of_inRange ?_ rfl
  unfold relayoutOnWords
  split
  · exact .add (by rw [total]; omega) (.result _)
  · exact .result _

theorem computes_ensureCapacity (head : d.head < d.slotCount) (hm : d.slotCount < 2 ^ 63)
    (capacity : Nat) :
    (d.ensureCapacityOnWords a capacity).Computes (d.ensureCapacity a capacity) := by
  refine .of_inRange ?_ rfl
  unfold ensureCapacityOnWords
  split
  · exact .result _
  · next count answer =>
      have word : count < 2 ^ 64 := by
        obtain ⟨fits, rfl⟩ := by simpa [sum?] using answer
        exact Nat.lt_of_le_of_lt fits (by decide)
      split
      · exact .sub (by omega) word (computes_grow head hm _).inRange
      · exact .result _

theorem WellFormed.computes_tryTrimToSize (h : d.WellFormed) (hm : d.slotCount < 2 ^ 63) :
    (d.tryTrimToSizeOnWords a).Computes (d.tryTrimToSize a) := by
  have length := h.length_lt
  refine .of_inRange (.bind (h.computes_length hm) (.add (by omega) ?_)) rfl
  split
  · exact (h.holds.computes_relayout hm [] (by simp) _ _).inRange
  · exact .result _

/-! ### The two ends -/

theorem WellFormed.computes_tryPushFront (h : d.WellFormed) (hm : d.slotCount < 2 ^ 63) (x : α) :
    (d.tryPushFrontOnWords a x).Computes (d.tryPushFront a x) := by
  have same := slotCount_filledFront x d
  have head : (d.filledFront x).head < (d.filledFront x).slotCount :=
    same.symm ▸ Circle.prev_lt h.head_lt
  refine .of_inRange (.bind (Circle.computes_prev h.head_lt hm) ?_) rfl
  change Calculation.InRange (if (d.filledFront x).head = (d.filledFront x).tail then
    ((d.filledFront x).growOnWords a 1).bind _ else .result (Except.ok (), d.filledFront x))
  split
  · refine .bind (computes_grow head (by omega) 1) ?_
    rcases answer : (d.filledFront x).grow a 1 with ⟨e | ⟨⟩, full⟩
    · rw [eq_of_grow_eq_error answer]
      exact .bind (Circle.computes_next head (by omega)) (.result _)
    · exact .result _
  · exact .result _

theorem WellFormed.computes_tryPushBack (h : d.WellFormed) (hm : d.slotCount < 2 ^ 63) (x : α) :
    (d.tryPushBackOnWords a x).Computes (d.tryPushBack a x) := by
  have same := slotCount_filledBack x d
  have tail : (d.filledBack x).tail < (d.filledBack x).slotCount :=
    same.symm ▸ Circle.next_lt h.tail_lt
  have head : (d.filledBack x).head < (d.filledBack x).slotCount := same.symm ▸ h.head_lt
  refine .of_inRange (.bind (Circle.computes_next h.tail_lt hm) ?_) rfl
  change Calculation.InRange (if (d.filledBack x).head = (d.filledBack x).tail then
    ((d.filledBack x).growOnWords a 1).bind _ else .result (Except.ok (), d.filledBack x))
  split
  · refine .bind (computes_grow head (by omega) 1) ?_
    rcases answer : (d.filledBack x).grow a 1 with ⟨e | ⟨⟩, full⟩
    · rw [eq_of_grow_eq_error answer]
      exact .bind (Circle.computes_prev tail (by omega)) (.result _)
    · exact .result _
  · exact .result _

theorem WellFormed.computes_popFront (h : d.WellFormed) (hm : d.slotCount < 2 ^ 63) :
    d.popFrontOnWords.Computes d.popFront := by
  refine .of_inRange ?_ rfl
  unfold popFrontOnWords
  cases d.slot d.head with
  | none => exact .result _
  | some x => exact .bind (Circle.computes_next h.head_lt hm) (.result _)

theorem WellFormed.computes_popBack (h : d.WellFormed) (hm : d.slotCount < 2 ^ 63) :
    d.popBackOnWords.Computes d.popBack :=
  .of_inRange (.bind (Circle.computes_prev h.tail_lt hm) (.result _)) rfl

/-! ### Access by position -/

theorem WellFormed.computes_get? (h : d.WellFormed) (hm : d.slotCount < 2 ^ 63) (index : Nat) :
    (d.get?OnWords index).Computes (d.get? index) := by
  have length := h.length_lt
  refine .of_inRange (.bind (h.computes_length hm) ?_) rfl
  split
  · exact .bind (h.computes_position hm (by omega)) (.result _)
  · exact .result _

theorem WellFormed.computes_get (h : d.WellFormed) (hm : d.slotCount < 2 ^ 63) (index : Nat) :
    (d.getOnWords index).Computes (d.get index) := by
  refine .of_inRange (.bind (h.computes_length hm) ?_) rfl
  split
  · exact .bind (h.computes_get? hm index) (.result _)
  · exact .result _

theorem WellFormed.computes_set (h : d.WellFormed) (hm : d.slotCount < 2 ^ 63) (index : Nat)
    (x : α) :
    (d.setOnWords index x).Computes (d.set index x) := by
  have length := h.length_lt
  refine .of_inRange (.bind (h.computes_length hm) ?_) rfl
  split
  · exact .bind (h.computes_position hm (by omega)) (.result _)
  · exact .result _

/-- The numbers of elements on both sides of a slot add up to a word wherever that slot is. -/
theorem WellFormed.computes_insertAt (h : d.WellFormed) (hm : d.slotCount < 2 ^ 63)
    (hp : p < d.slotCount) (x : α) : (d.insertAtOnWords a p x).Computes (d.insertAt a p x) := by
  have front := Circle.steps_lt h.head_lt hp
  have back := Circle.steps_lt hp h.tail_lt
  refine .of_inRange (.bind (Circle.computes_steps h.head_lt hp hm) ?_) rfl
  refine .bind (Circle.computes_steps hp h.tail_lt hm) ?_
  refine .add (by omega) (.add (by omega) ?_)
  split
  · refine .bind (computes_grownSlotCount hm 1) ?_
    cases d.grownSlotCount a 1 with
    | error e => exact .result _
    | ok count => exact .bind (h.holds.computes_relayout hm [x] (by simp) _ _) (.result _)
  split
  · refine .bind (Slots.computes_shiftFrontward hm h.head_lt (show 1 ≤ d.slotCount by omega)
      (Nat.le_of_lt front)) ?_
    refine .bind (Circle.computes_prev h.head_lt hm) ?_
    exact .bind (Circle.computes_prev hp hm) (.result _)
  · refine .bind (Slots.computes_shiftBackward hm hp (show 1 ≤ d.slotCount by omega)
      (Nat.le_of_lt back)) ?_
    exact .bind (Circle.computes_next h.tail_lt hm) (.result _)

/-- The slot of an element is not the one behind the back, so there is at least that element from it
on. -/
theorem WellFormed.computes_delete (h : d.WellFormed) (hm : d.slotCount < 2 ^ 63) (p : Nat) :
    (d.deleteOnWords p).Computes (d.delete p) := by
  refine .of_inRange ?_ rfl
  unfold deleteOnWords
  cases occupied : d.slot p with
  | none => exact .result _
  | some x =>
      have hp : p < d.slotCount := lt_slotCount_of_slot occupied
      have apart : Circle.steps p d.tail d.slotCount ≠ 0 := by
        intro here
        rw [(Circle.steps_eq_zero_iff hp).1 here, h.holds.slot_tail] at occupied
        contradiction
      have front := Circle.steps_lt h.head_lt hp
      have back := Circle.steps_lt hp h.tail_lt
      have same : (d.slots.put p none).size = d.slotCount := Slots.size_put ..
      refine .bind (Circle.computes_steps h.head_lt hp hm) ?_
      refine .bind (Circle.computes_steps hp h.tail_lt hm) ?_
      refine .sub (by omega) (by omega) ?_
      split
      · refine .bind (Slots.computes_shiftBackward ?_ ?_ ?_ ?_) ?_
        · omega
        · exact same.symm ▸ h.head_lt
        · omega
        · omega
        · exact .bind (Circle.computes_next h.head_lt hm) (.result _)
      · refine .bind (Circle.computes_next hp hm) ?_
        refine .bind (Slots.computes_shiftFrontward ?_ ?_ ?_ ?_) ?_
        · omega
        · exact same.symm ▸ Circle.next_lt hp
        · omega
        · omega
        · exact .bind (Circle.computes_prev h.tail_lt hm) (.result _)

theorem WellFormed.computes_insert (h : d.WellFormed) (hm : d.slotCount < 2 ^ 63) (index : Nat)
    (x : α) :
    (d.insertOnWords a index x).Computes (d.insert a index x) := by
  have length := h.length_lt
  refine .of_inRange (.bind (h.computes_length hm) ?_) rfl
  split
  · exact .result _
  · have inside : d.position index < d.slotCount := Circle.forward_lt h.head_lt (by omega)
    refine .bind (h.computes_position hm (by omega)) ?_
    exact .bind (h.computes_insertAt hm inside x) (.result _)

theorem WellFormed.computes_removeAt (h : d.WellFormed) (hm : d.slotCount < 2 ^ 63) (index : Nat) :
    (d.removeAtOnWords index).Computes (d.removeAt index) := by
  have length := h.length_lt
  refine .of_inRange (.bind (h.computes_length hm) ?_) rfl
  split
  · refine .bind (h.computes_position hm (by omega)) ?_
    exact .bind (h.computes_delete hm _) (.result _)
  · exact .result _

/-! ### Search -/

theorem WellFormed.inRange_indexOfFound (h : d.WellFormed) (hm : d.slotCount < 2 ^ 63)
    (found : Option Nat) (inside : ∀ p, found = some p → p < d.slotCount) :
    (d.indexOfFoundOnWords found).InRange := by
  cases found with
  | none => exact .result _
  | some p => exact .bind (Circle.computes_steps h.head_lt (inside p rfl) hm) (.result _)

theorem WellFormed.computes_removeFound (h : d.WellFormed) (hm : d.slotCount < 2 ^ 63)
    (found : Option Nat) :
    (d.removeFoundOnWords found).Computes (d.removeFound found) := by
  refine .of_inRange ?_ rfl
  cases found with
  | none => exact .result _
  | some p => exact .bind (h.computes_delete hm p) (.result _)

section Search

variable [BEq α]

theorem lt_slotCount_of_holds (h : d.holds x p = true) : p < d.slotCount := by
  rw [holds] at h
  split at h
  · next occupied => exact lt_slotCount_of_slot occupied
  · contradiction

theorem lt_slotCount_of_findFrom? {q : Nat} (h : d.findFrom? x p count = some q) :
    q < d.slotCount := by
  induction count generalizing p with
  | zero => contradiction
  | succ count ih =>
      rw [findFrom?_succ] at h
      split at h
      · next hit => exact Option.some.inj h ▸ lt_slotCount_of_holds hit
      · exact ih h

theorem lt_slotCount_of_findBefore? {q : Nat} (h : d.findBefore? x p count = some q) :
    q < d.slotCount := by
  induction count generalizing p with
  | zero => contradiction
  | succ count ih =>
      rw [findBefore?_succ] at h
      split at h
      · next hit => exact Option.some.inj h ▸ lt_slotCount_of_holds hit
      · exact ih h

theorem computes_findFrom (hm : d.slotCount < 2 ^ 63) (hp : p < d.slotCount) (x : α) (count : Nat) :
    (d.findFromOnWords x p count).Computes (d.findFrom? x p count) := by
  refine .of_inRange ?_ rfl
  induction count generalizing p with
  | zero => exact .result _
  | succ count ih =>
      unfold findFromOnWords
      split
      · exact .result _
      · exact .bind (Circle.computes_next hp hm) (ih (Circle.next_lt hp))

theorem computes_findBefore (hm : d.slotCount < 2 ^ 63) (hp : p < d.slotCount) (x : α)
    (count : Nat) :
    (d.findBeforeOnWords x p count).Computes (d.findBefore? x p count) := by
  refine .of_inRange ?_ rfl
  induction count generalizing p with
  | zero => exact .result _
  | succ count ih =>
      refine .bind (Circle.computes_prev hp hm) ?_
      split
      · exact .result _
      · exact ih (Circle.prev_lt hp)

theorem WellFormed.computes_findSlot (h : d.WellFormed) (hm : d.slotCount < 2 ^ 63) (x : α) :
    (d.findSlotOnWords x).Computes (d.findSlot? x) :=
  .of_inRange (.bind (h.computes_length hm) (computes_findFrom hm h.head_lt x _).inRange) rfl

theorem WellFormed.computes_findLastSlot (h : d.WellFormed) (hm : d.slotCount < 2 ^ 63) (x : α) :
    (d.findLastSlotOnWords x).Computes (d.findLastSlot? x) :=
  .of_inRange (.bind (h.computes_length hm) (computes_findBefore hm h.tail_lt x _).inRange) rfl

theorem WellFormed.computes_indexOf (h : d.WellFormed) (hm : d.slotCount < 2 ^ 63) (x : α) :
    (d.indexOfOnWords x).Computes (d.indexOf? x) :=
  .of_inRange (.bind (h.computes_findSlot hm x)
    (h.inRange_indexOfFound hm _ fun _ found =>
      lt_slotCount_of_findFrom? ((findSlot?_eq x d).symm.trans found))) rfl

theorem WellFormed.computes_lastIndexOf (h : d.WellFormed) (hm : d.slotCount < 2 ^ 63) (x : α) :
    (d.lastIndexOfOnWords x).Computes (d.lastIndexOf? x) :=
  .of_inRange (.bind (h.computes_findLastSlot hm x)
    (h.inRange_indexOfFound hm _ fun _ found =>
      lt_slotCount_of_findBefore? ((findLastSlot?_eq x d).symm.trans found))) rfl

theorem WellFormed.computes_removeFirstOccurrence (h : d.WellFormed) (hm : d.slotCount < 2 ^ 63)
    (x : α) :
    (d.removeFirstOccurrenceOnWords x).Computes (d.removeFirstOccurrence x) :=
  .of_inRange (.bind (h.computes_findSlot hm x) (h.computes_removeFound hm _).inRange) rfl

theorem WellFormed.computes_removeLastOccurrence (h : d.WellFormed) (hm : d.slotCount < 2 ^ 63)
    (x : α) :
    (d.removeLastOccurrenceOnWords x).Computes (d.removeLastOccurrence x) :=
  .of_inRange (.bind (h.computes_findLastSlot hm x) (h.computes_removeFound hm _).inRange) rfl

end Search

end Deque

end RingDeque
