import RingDeque.Proofs.Words.Circle
import RingDeque.Slots

/-!
# Moving slots on words

The bounds of runs, and of the pieces that a shift is made of. A run lies within the buffer, and so
does what it moves into; the number of slots that are left up to the end of the buffer is counted
only from a slot inside it.
-/

namespace RingDeque.Slots

variable {α : Type u} {slots : Slots α} {m start distance length moved remaining : Nat}

theorem computes_moveRun {source target n : Nat} (hm : slots.size < 2 ^ 63)
    (hs : source + n ≤ slots.size) (ht : target + n ≤ slots.size) :
    (slots.moveRunOnWords source target n).Computes (slots.moveRun source target n) := by
  refine .of_inRange ?_ rfl
  unfold moveRunOnWords
  split
  · exact .result _
  refine .add (by omega) ?_
  split
  · exact .result _
  refine .add (by omega) ?_
  split
  · exact .result _
  split
  · exact .sub (by omega) (by omega) (.sub (by omega) (by omega) (.result _))
  · exact .sub (by omega) (by omega)
      (.sub (by omega) (by omega) (.sub (by omega) (by omega) (.result _)))

theorem computes_shiftPiecesFrontward (size : slots.size = m) (hm : m < 2 ^ 63) (hs : start < m)
    (hd : distance ≤ m) (hl : length ≤ m) (rounds : Nat) :
    (shiftPiecesFrontwardOnWords start distance length rounds slots moved).Computes
      (slots.shiftPiecesFrontward start distance length moved rounds) := by
  refine .of_inRange ?_ rfl
  induction rounds generalizing slots moved with
  | zero => exact .result _
  | succ rounds ih =>
      subst size
      unfold shiftPiecesFrontwardOnWords
      split
      · next rest =>
          have source := Circle.forward_lt hs (show moved ≤ slots.size by omega)
          have target := Circle.backward_lt source hd
          refine .bind (Circle.computes_forward hs (by omega) hm) ?_
          refine .bind (Circle.computes_backward source hd hm) ?_
          refine .sub (by omega) (by omega)
            (.sub (by omega) (by omega) (.sub (by omega) (by omega) ?_))
          refine .bind (computes_moveRun hm (by omega) (by omega)) (.add (by omega) ?_)
          exact ih (size_moveRun ..)
      · exact .result _

theorem computes_shiftPiecesBackward (size : slots.size = m) (hm : m < 2 ^ 63) (hs : start < m)
    (hd : distance ≤ m) (hr : remaining ≤ m) (rounds : Nat) :
    (shiftPiecesBackwardOnWords start distance rounds slots remaining).Computes
      (slots.shiftPiecesBackward start distance remaining rounds) := by
  refine .of_inRange ?_ rfl
  induction rounds generalizing slots remaining with
  | zero => exact .result _
  | succ rounds ih =>
      subst size
      unfold shiftPiecesBackwardOnWords
      split
      · next rest =>
          have last := Circle.forward_lt hs (show remaining - 1 ≤ slots.size by omega)
          have lastTarget := Circle.forward_lt last hd
          refine .sub (by omega) (by omega) ?_
          refine .bind (Circle.computes_forward hs (by omega) hm) ?_
          refine .bind (Circle.computes_forward last hd hm) ?_
          refine .add (by omega)
            (.add (by omega) (.sub (by omega) (by omega) (.sub (by omega) (by omega) ?_)))
          refine .bind (computes_moveRun hm (by omega) (by omega)) (.sub (by omega) (by omega) ?_)
          exact ih (size_moveRun ..) (by omega)
      · exact .result _

theorem computes_shiftFrontward (hm : slots.size < 2 ^ 63) (hs : start < slots.size)
    (hd : distance ≤ slots.size) (hl : length ≤ slots.size) :
    (slots.shiftFrontwardOnWords start distance length).Computes
    (slots.shiftFrontward start distance length) :=
  .of_inRange (.bind (computes_shiftPiecesFrontward rfl hm hs hd hl length) (.result _)) rfl

theorem computes_shiftBackward (hm : slots.size < 2 ^ 63) (hs : start < slots.size)
    (hd : distance ≤ slots.size) (hl : length ≤ slots.size) :
    (slots.shiftBackwardOnWords start distance length).Computes
    (slots.shiftBackward start distance length) :=
  .of_inRange (.bind (computes_shiftPiecesBackward rfl hm hs hd hl length) (.result _)) rfl

theorem computes_fill (xs : List α) (size : slots.size = m) (hm : m < 2 ^ 63) (hs : start < m) :
    (fillOnWords xs slots start).Computes (slots.fill start xs) := by
  refine .of_inRange ?_ rfl
  induction xs generalizing slots start with
  | nil => exact .result _
  | cons x xs ih =>
      subst size
      exact .bind (Circle.computes_next hs hm) (ih (size_put ..) (Circle.next_lt hs))

end RingDeque.Slots
