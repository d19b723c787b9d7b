import RingDeque.Proofs.Sort
import RingDeque.Proofs.Words.Updates

/-!
# Sorting on words

The sort of lists adds and subtracts nothing of the deque's. What is left are the bounds of the
elements when they are brought together and taken back: a deque that wraps has as many elements in
front of its end as there are slots from `head` on, and they are staged only where the gap behind
`tail` has room for all of them.
-/

namespace RingDeque.Deque

variable {σ : Type u} {α : Type v} {d : Deque α} {slots : Slots α} {sorter : Sorter.{u, v} σ}
    {start stop : Nat}

/-- The room that staged elements take. -/
structure HasGap (d : Deque α) : Prop where
  head_lt : d.head < d.slotCount
  room : d.tail + (d.slotCount - d.head) + d.tail ≤ d.head

theorem HasGap.computes_stage (h : d.HasGap) (hm : d.slotCount < 2 ^ 63) :
    d.stageOnWords.Computes d.stage := by
  have head := h.head_lt
  have room := h.room
  have size : (d.slots.moveRun 0 (d.tail + (d.slotCount - d.head)) d.tail).size = d.slotCount :=
    Slots.size_moveRun ..
  refine .of_inRange (.sub (by omega) (by omega) (.add (by omega) ?_)) rfl
  refine .bind (Slots.computes_moveRun hm ?_ ?_)
    (Slots.computes_moveRun (size.symm ▸ hm) ?_ ?_).inRange
  · exact show 0 + d.tail ≤ d.slotCount by omega
  · exact show d.tail + (d.slotCount - d.head) + d.tail ≤ d.slotCount by omega
  · omega
  · omega

theorem HasGap.computes_unstage (h : d.HasGap) (hm : d.slotCount < 2 ^ 63)
    (size : slots.size = d.slotCount) :
    (d.unstageOnWords slots).Computes (d.unstage slots) := by
  have head := h.head_lt
  have room := h.room
  have size' : (slots.moveRun d.tail d.head (d.slotCount - d.head)).size = d.slotCount :=
    (Slots.size_moveRun ..).trans size
  refine .of_inRange (.sub (by omega) (by omega) ?_) rfl
  refine .bind (Slots.computes_moveRun (size ▸ hm) ?_ ?_) (.add (by omega) ?_)
  · omega
  · omega
  refine (Slots.computes_moveRun (size'.symm ▸ hm) ?_ ?_).inRange
  · omega
  · omega

theorem size_sortSlots (sound : sorter.Sound) (compare : Comparison σ α) (hs : start ≤ stop)
    (hm : stop ≤ slots.size) (s : σ) :
    (sortSlots sorter compare start stop slots s).1.2.size = slots.size := by
  have same := (sound.perm compare.onSlots (slots.extract start stop).toList s).length_eq
  rw [sortSlots]
  simp only [Array.size_append, Array.size_extract, List.size_toArray, same, Array.length_toList]
  omega

/-- Whatever the comparison answers, and whether it fails or not. -/
theorem WellFormed.computes_sortWith (h : d.WellFormed) (hm : d.slotCount < 2 ^ 63)
    (sound : sorter.Sound) (compare : Comparison σ α) (s : σ) :
    (d.sortWithOnWords sorter compare s).Computes (d.sortWith sorter compare s) := by
  have length := h.length_lt
  have head := h.head_lt
  have tail := h.tail_lt
  refine .of_inRange (.bind (y := d.sortElements sorter compare s) ?_ (.result _)) rfl
  refine .of_inRange (.bind (h.computes_length hm) ?_) rfl
  split
  · exact .result _
  split
  · exact .result _
  next wrapped =>
  split
  · exact .result _
  have around : d.length = d.tail + d.slotCount - d.head := by
    have behind : ¬d.head ≤ d.tail := by simpa [isWrapped] using wrapped
    rw [Deque.length, Circle.steps_eq, if_neg behind]
  refine .add (by omega) ?_
  split
  · next room =>
      have gap : d.HasGap := ⟨head, by omega⟩
      have size := size_sortSlots sound compare (show d.tail ≤ d.tail + d.length by omega)
        (show d.tail + d.length ≤ d.stage.size by rw [size_stage]; omega) s
      rw [size_stage] at size
      refine .bind (gap.computes_stage hm) (.bind (h.computes_length hm) (.add (by omega) ?_))
      exact .bind (gap.computes_unstage hm size) (.result _)
  · exact .bind (Slots.computes_fill _ (Slots.size_clear ..) hm head) (.result _)

end RingDeque.Deque
