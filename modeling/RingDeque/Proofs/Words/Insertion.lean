import RingDeque.Proofs.Update
import RingDeque.Proofs.Words.Updates

/-!
# Adding many elements on words

A source of less than `2 ^ 63` elements and a deque of less than `2 ^ 63` slots have less than
`2 ^ 64` elements together. Where the elements are laid out anew there are at least as many as
slots, so what is missing is no difference below zero. An extension adds one by one whatever its
source delivers, and every addition leaves a deque that the next one can start from; the number that
the source claims is added up to the largest word at most.
-/

namespace RingDeque.Deque

variable {α : Type u} {a : Allocator} {d d' : Deque α} {xs ys : List α} {asked index : Nat}

/-- A reservation keeps the elements, granted or not. -/
theorem Holds.ensureCapacity_any (h : d.Holds xs) (capacity : Nat) :
    (d.ensureCapacity a capacity).2.Holds xs := by
  by_cases served : capacity < wordMax ∧ d.Room a capacity
  · obtain ⟨d', ensured, holds, -⟩ := h.ensureCapacity served.1 served.2
    exact ensured.symm ▸ holds
  · obtain ⟨e, -, refused⟩ := ensureCapacity_of_not_room served
    exact refused.symm ▸ h

/-- No allocator gives a buffer of more slots. -/
theorem Sized.slotCount_lt (h : Sized a asked d d') (hm : d.slotCount < 2 ^ 63) :
    d'.slotCount < 2 ^ 63 := by
  cases h with
  | same size => exact size.symm ▸ hm
  | grown _ grown => exact Nat.lt_of_le_of_lt grown.bounded a.maxSlots_lt

theorem WellFormed.computes_insertRange (h : d.WellFormed) (hm : d.slotCount < 2 ^ 63)
    (hi : index ≤ d.length) (hx : xs.length < 2 ^ 63) :
    (d.insertRangeOnWords a index xs).Computes (d.insertRange a index xs) := by
  have length := h.length_lt
  refine .of_inRange ?_ rfl
  unfold insertRangeOnWords
  dsimp only
  split
  · exact .result _
  refine .bind (h.computes_length hm) (.add (by omega) ?_)
  split
  · refine .add (by omega) (.sub (by omega) (by omega) ?_)
    refine .bind (computes_grownSlotCount hm _) ?_
    cases d.grownSlotCount a (d.length + xs.length + 1 - d.slotCount) with
    | error e => exact .result _
    | ok count => exact .bind (h.holds.computes_relayout hm xs hx _ _) (.result _)
  refine .sub hi (by omega) ?_
  split
  · have head : Circle.backward d.head xs.length d.slotCount < d.slotCount :=
      Circle.backward_lt h.head_lt (by omega)
    have start := Circle.forward_lt head (show index ≤ d.slotCount by omega)
    refine .bind (Slots.computes_shiftFrontward hm h.head_lt ?_ ?_) ?_
    · exact show xs.length ≤ d.slotCount by omega
    · exact show index ≤ d.slotCount by omega
    refine .bind (Circle.computes_backward h.head_lt (by omega) hm) ?_
    refine .bind (Circle.computes_forward head (by omega) hm) ?_
    exact .bind (Slots.computes_fill xs (Slots.size_shiftFrontward ..) hm start) (.result _)
  · have start : d.position index < d.slotCount := Circle.forward_lt h.head_lt (by omega)
    refine .bind (h.computes_position hm (by omega)) ?_
    refine .bind (Slots.computes_shiftBackward hm start ?_ ?_) ?_
    · exact show xs.length ≤ d.slotCount by omega
    · exact show d.length - index ≤ d.slotCount by omega
    refine .bind (Circle.computes_forward h.tail_lt (by omega) hm) ?_
    refine .bind (h.computes_position hm (by omega)) ?_
    exact .bind (Slots.computes_fill xs (Slots.size_shiftBackward ..) hm start) (.result _)

theorem complete_eq {source : Trace α} (h : source.complete = .ok xs) : xs = source.values := by
  rw [Trace.complete] at h
  split at h
  · exact (Except.ok.inj h).symm
  · contradiction

theorem WellFormed.computes_insertAll (h : d.WellFormed) (hm : d.slotCount < 2 ^ 63) (index : Nat)
    {source : Trace α} (hs : source.values.length < 2 ^ 63) :
    (d.insertAllOnWords a index source).Computes (d.insertAll a index source) := by
  refine .of_inRange (.bind (h.computes_length hm) ?_) rfl
  split
  · exact .result _
  · next inside =>
      cases complete : source.complete with
      | error fault => exact .result _
      | ok xs =>
          obtain rfl := complete_eq complete
          exact .bind (h.computes_insertRange hm (Nat.le_of_not_lt inside) hs) (.result _)

theorem WellFormed.computes_tryAddAll (h : d.WellFormed) (hm : d.slotCount < 2 ^ 63)
    {source : Trace α} (hs : source.values.length < 2 ^ 63) :
    (d.tryAddAllOnWords a source).Computes (d.tryAddAll a source) := by
  refine .of_inRange ?_ rfl
  unfold tryAddAllOnWords
  cases complete : source.complete with
  | error fault => exact .result _
  | ok xs =>
      obtain rfl := complete_eq complete
      refine .bind (h.computes_length hm) ?_
      exact .bind (h.computes_insertRange hm (Nat.le_refl _) hs) (.result _)

/-- Every addition leaves a deque in order, and in a buffer that is not too large. -/
theorem WellFormed.computes_pushAll (h : d.WellFormed) (hm : d.slotCount < 2 ^ 63) (xs : List α) :
    (d.pushAllOnWords a xs).Computes (d.pushAll a xs) := by
  refine .of_inRange ?_ rfl
  induction xs generalizing d with
  | nil => exact .result _
  | cons x xs ih =>
      unfold pushAllOnWords
      refine .bind (h.computes_tryPushBack hm x) ?_
      have bounded := (h.holds.sized_tryPushBack (a := a) (x := x)).slotCount_lt hm
      obtain ⟨ys, holds⟩ := h.holds.tryPushBack_any (a := a) x
      rcases answer : d.tryPushBack a x with ⟨e | ⟨⟩, pushed⟩
      · exact .result _
      · rw [answer] at bounded holds
        exact ih holds.wellFormed bounded

theorem WellFormed.computes_extend (h : d.WellFormed) (hm : d.slotCount < 2 ^ 63) (claimed : Nat)
    (source : Trace α) :
    (d.extendOnWords a claimed source).Computes (d.extend a claimed source) := by
  refine .of_inRange (.bind (h.computes_length hm) ?_) rfl
  refine .bind (computes_ensureCapacity h.head_lt hm _) ?_
  rcases answer : d.ensureCapacity a (min (d.length + claimed) wordMax) with ⟨e | ⟨⟩, ensured⟩
  · exact .result _
  · have bounded :=
      (h.holds.sized_ensureCapacity (a := a) (min (d.length + claimed) wordMax)).slotCount_lt hm
    have holds := h.holds.ensureCapacity_any (a := a) (min (d.length + claimed) wordMax)
    rw [answer] at bounded holds
    exact .bind (holds.wellFormed.computes_pushAll bounded _) (.result _)

end RingDeque.Deque
