import RingDeque.Circle
import RingDeque.Proofs.Words.Calculation

/-!
# Positions on words

The walks on a circle, one addition or subtraction at a time. On a circle of less than `2 ^ 63`
slots a position and a distance of at most one round add up to a word, and nothing is taken from
less than itself.
-/

namespace RingDeque.Circle

variable {a b i k m : Nat}

theorem computes_next (hi : i < m) (hm : m < 2 ^ 63) : (nextOnWords i m).Computes (next i m) :=
  .of_inRange (.add (by omega) (.result _)) rfl

theorem computes_prev (hi : i < m) (hm : m < 2 ^ 63) : (prevOnWords i m).Computes (prev i m) := by
  refine .of_inRange ?_ rfl
  unfold prevOnWords
  split
  · exact .sub (by omega) (by omega) (.result _)
  · exact .sub (by omega) (by omega) (.result _)

theorem computes_forward (hi : i < m) (hk : k ≤ m) (hm : m < 2 ^ 63) :
    (forwardOnWords i k m).Computes (forward i k m) := by
  refine .of_inRange (.add (by omega) ?_) rfl
  split
  · exact .result _
  · exact .sub (by omega) (by omega) (.result _)

/-- Only for positions in a circle: elsewhere words and numbers part. -/
example :
    (forwardOnWords (2 ^ 64 - 1) 2 5).checked = none ∧
      (forwardOnWords (2 ^ 64 - 1) 2 5).wrapping = 1 := by
  decide

theorem computes_backward (hi : i < m) (hk : k ≤ m) (hm : m < 2 ^ 63) :
    (backwardOnWords i k m).Computes (backward i k m) := by
  refine .of_inRange ?_ rfl
  unfold backwardOnWords
  split
  · next within => exact .sub within (by omega) (.result _)
  · exact .add (by omega) (.sub (by omega) (by omega) (.result _))

/-- A round is added only for an end that lies before the beginning, and it has to make up for
that. -/
theorem computes_steps_of_le (ha : a ≤ b + m) (hb : b < 2 ^ 63) (hm : m < 2 ^ 63) :
    (stepsOnWords a b m).Computes (steps a b m) := by
  refine .of_inRange ?_ rfl
  unfold stepsOnWords
  split
  · next within => exact .sub within (by omega) (.result _)
  · exact .add (by omega) (.sub ha (by omega) (.result _))

theorem computes_steps (ha : a < m) (hb : b < m) (hm : m < 2 ^ 63) :
    (stepsOnWords a b m).Computes (steps a b m) :=
  computes_steps_of_le (by omega) (by omega) hm

end RingDeque.Circle
