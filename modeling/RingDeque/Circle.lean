import RingDeque.Calculation

/-!
# Positions on a circle

The slots of a buffer of `m` slots stand on a circle: behind slot `m - 1` comes slot `0` again. The
functions below walk on that circle. Each takes a position below `m` and a distance of at most `m`,
so one comparison and one addition or subtraction of `m` replace a remainder, and no intermediate
value exceeds `2 * m`.

`steps a b m` counts the steps from `a` forward to `b`. It is `0` when the two positions are equal,
which is how an empty range is written.
-/

namespace RingDeque.Circle

/-- The position behind `i`. -/
def nextOnWords (i m : Nat) : Calculation Nat :=
  .add i 1 fun behind => .result (if behind < m then behind else 0)

/-- The position before `i`. -/
def prevOnWords (i m : Nat) : Calculation Nat :=
  if i = 0 then .sub m 1 .result else .sub i 1 .result

/-- The position `k` steps behind `i`. -/
def forwardOnWords (i k m : Nat) : Calculation Nat :=
  .add i k fun sum => if sum < m then .result sum else .sub sum m .result

/-- The position `k` steps before `i`. The round is added before the distance is taken away. -/
def backwardOnWords (i k m : Nat) : Calculation Nat :=
  if k ≤ i then .sub i k .result else .add i m fun around => .sub around k .result

/-- How many steps lead from `a` forward to `b`. -/
def stepsOnWords (a b m : Nat) : Calculation Nat :=
  if a ≤ b then .sub b a .result else .add b m fun around => .sub around a .result

/-- The exact reading of `nextOnWords`, and so on for the other walks. -/
def next (i m : Nat) : Nat := (nextOnWords i m).exact

@[inherit_doc next]
def prev (i m : Nat) : Nat := (prevOnWords i m).exact

@[inherit_doc next]
def forward (i k m : Nat) : Nat := (forwardOnWords i k m).exact

@[inherit_doc next]
def backward (i k m : Nat) : Nat := (backwardOnWords i k m).exact

@[inherit_doc next]
def steps (a b m : Nat) : Nat := (stepsOnWords a b m).exact

/-- The number `steps a b m` where it is meaningful: there is none if `a` lies more than a whole
circle beyond `b`, which happens only to a position remembered from a larger buffer. -/
def steps? (a b m : Nat) : Option Nat := (stepsOnWords a b m).natural?

variable {a b i k m : Nat}

@[simp] theorem exact_stepsOnWords (a b m : Nat) : (stepsOnWords a b m).exact = steps a b m := rfl

theorem next_eq (i m : Nat) : next i m = if i + 1 < m then i + 1 else 0 := rfl

theorem prev_eq (i m : Nat) : prev i m = if i = 0 then m - 1 else i - 1 := by
  simp [prev, prevOnWords]

theorem forward_eq (i k m : Nat) : forward i k m = if i + k < m then i + k else i + k - m := by
  simp [forward, forwardOnWords]

theorem backward_eq (i k m : Nat) : backward i k m = if k ≤ i then i - k else i + m - k := by
  simp [backward, backwardOnWords]

theorem steps_eq (a b m : Nat) : steps a b m = if a ≤ b then b - a else b + m - a := by
  simp [steps, stepsOnWords]

theorem steps?_eq (a b m : Nat) :
    steps? a b m = if a ≤ b + m then some (steps a b m) else none := by
  rw [steps?, steps_eq, stepsOnWords]
  split
  · next inside =>
      rw [if_pos (Nat.le_trans inside (Nat.le_add_right ..))]
      exact if_pos inside
  · rfl

theorem next_lt (h : i < m) : next i m < m := by
  simp only [next_eq]
  split <;> omega

theorem prev_lt (h : i < m) : prev i m < m := by
  simp only [prev_eq]
  split <;> omega

theorem forward_lt (hi : i < m) (hk : k ≤ m) : forward i k m < m := by
  simp only [forward_eq]
  split <;> omega

theorem backward_lt (hi : i < m) (hk : k ≤ m) : backward i k m < m := by
  simp only [backward_eq]
  split <;> omega

theorem steps_lt (ha : a < m) (hb : b < m) : steps a b m < m := by
  simp only [steps_eq]
  split <;> omega

theorem next_prev (h : i < m) : next (prev i m) m = i := by
  simp only [next_eq, prev_eq]
  split <;> split <;> omega

theorem prev_next (h : i < m) : prev (next i m) m = i := by
  simp only [next_eq, prev_eq]
  split <;> split <;> omega

@[simp] theorem forward_zero (h : i < m) : forward i 0 m = i := by
  simp [forward_eq, h]

theorem forward_one (h : i < m) : forward i 1 m = next i m := by
  simp only [forward_eq, next_eq]
  split <;> omega

theorem backward_forward (hi : i < m) (hk : k ≤ m) : backward (forward i k m) k m = i := by
  simp only [backward_eq, forward_eq]
  split <;> split <;> omega

theorem forward_backward (hi : i < m) (hk : k ≤ m) : forward (backward i k m) k m = i := by
  simp only [backward_eq, forward_eq]
  split <;> split <;> omega

theorem steps_forward (hi : i < m) (hk : k < m) : steps i (forward i k m) m = k := by
  simp only [steps_eq, forward_eq]
  split <;> split <;> omega

theorem forward_steps (ha : a < m) (hb : b < m) : forward a (steps a b m) m = b := by
  simp only [steps_eq, forward_eq]
  split <;> split <;> omega

theorem steps_eq_zero_iff (ha : a < m) : steps a b m = 0 ↔ a = b := by
  simp only [steps_eq]
  split <;> omega

/-- Inside a buffer the number of steps is always meaningful. -/
theorem steps?_eq_some (h : a ≤ m) : steps? a b m = some (steps a b m) := by
  rw [steps?_eq, if_pos (Nat.le_trans h (Nat.le_add_left ..))]

end RingDeque.Circle
