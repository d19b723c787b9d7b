import RingDeque.Circle

/-!
# Slots

A buffer is an array of slots, each empty or holding one element. Elements move only by swapping two
slots, so no move loses or doubles an element: what stood in the destination, normally nothing, ends
up in the slot that was left.

`moveRun` moves slots that stand next to one another. It swaps them with their destination slot by
slot; if they overlap it, it rotates both together. `shiftFrontward` and `shiftBackward` move a run
of slots on the circle. They cut it into pieces wherever the run or its destination crosses the end
of the buffer, and begin with the piece that leads the movement, so that every destination is either
outside the run or already vacated.
-/

namespace RingDeque

/-- An array of slots. -/
abbrev Slots (α : Type u) := Array (Option α)

namespace Slots

variable {α : Type u}

/-- A buffer of `n` empty slots. -/
def empty (n : Nat) : Slots α :=
  Array.replicate n none

/-- What slot `i` holds. There is nothing beyond the end of the buffer. -/
def at? (slots : Slots α) (i : Nat) : Option α :=
  slots[i]?.join

/-- Put `content` into slot `i`. -/
def put (slots : Slots α) (i : Nat) (content : Option α) : Slots α :=
  slots.setIfInBounds i content

/-- Exchange the contents of two slots. -/
def swap (slots : Slots α) (i j : Nat) : Slots α :=
  slots.swapIfInBounds i j

/-- Turn round the order of the slots from `i` on. The last argument is their number. -/
def reverseRun (slots : Slots α) (i : Nat) : Nat → Slots α
  | 0 => slots
  | 1 => slots
  | n + 2 => (slots.swap i (i + n + 1)).reverseRun (i + 1) n

/-- Put the first `k` of the `n` slots from `i` on behind the others. Both parts are turned round,
and then the whole. -/
def rotateRun (slots : Slots α) (i k n : Nat) : Slots α :=
  ((slots.reverseRun i k).reverseRun (i + k) (n - k)).reverseRun i n

/-- Exchange the slots from `i` on for those from `j` on, one after the other. The last argument is
their number. -/
def swapRuns (slots : Slots α) (i j : Nat) : Nat → Slots α
  | 0 => slots
  | n + 1 => (slots.swap i j).swapRuns (i + 1) (j + 1) n

/-- Move the `n` slots from `source` on to `target`. Slots that move toward the end are rotated to
the right, by their distance; that leaves the others in front. -/
def moveRunOnWords (slots : Slots α) (source target n : Nat) : Calculation (Slots α) :=
  if n = 0 ∨ source = target then
    .result slots
  else
    .add source n fun behind =>
    if behind ≤ target then
      .result (slots.swapRuns source target n)
    else
      .add target n fun behindTarget =>
      if behindTarget ≤ source then
        .result (slots.swapRuns source target n)
      else if target < source then
        .sub source target fun distance =>
        .sub behind target fun both =>
        .result (slots.rotateRun target distance both)
      else
        .sub behindTarget source fun both =>
        .sub target source fun distance =>
        .sub both distance fun others =>
        .result (slots.rotateRun source others both)

@[inherit_doc moveRunOnWords]
def moveRun (slots : Slots α) (source target n : Nat) : Slots α :=
  (slots.moveRunOnWords source target n).exact

/-- Move piece after piece of the run that begins at `start` toward the front, its first slot first.
The first `moved` slots of the run have been moved. Returns how many have been moved after at most
so many rounds. -/
def shiftPiecesFrontwardOnWords (start distance length : Nat) :
    Nat → Slots α → Nat → Calculation (Slots α × Nat)
  | 0, slots, moved => .result (slots, moved)
  | rounds + 1, slots, moved =>
    if moved < length then
      (Circle.forwardOnWords start moved slots.size).bind fun source =>
      (Circle.backwardOnWords source distance slots.size).bind fun target =>
      .sub length moved fun rest =>
      .sub slots.size source fun room =>
      .sub slots.size target fun targetRoom =>
      let piece := min (min rest room) targetRoom
      (slots.moveRunOnWords source target piece).bind fun slots =>
      .add moved piece fun moved =>
      shiftPiecesFrontwardOnWords start distance length rounds slots moved
    else
      .result (slots, moved)

@[inherit_doc shiftPiecesFrontwardOnWords]
def shiftPiecesFrontward (slots : Slots α) (start distance length moved rounds : Nat) :
    Slots α × Nat :=
  (shiftPiecesFrontwardOnWords start distance length rounds slots moved).exact

/-- Move piece after piece of the run that begins at `start` toward the back, its last slot first.
The first `remaining` slots of the run have yet to be moved. Returns how many have yet to be moved
after at most so many rounds. -/
def shiftPiecesBackwardOnWords (start distance : Nat) :
    Nat → Slots α → Nat → Calculation (Slots α × Nat)
  | 0, slots, remaining => .result (slots, remaining)
  | rounds + 1, slots, remaining =>
    if 0 < remaining then
      .sub remaining 1 fun before =>
      (Circle.forwardOnWords start before slots.size).bind fun last =>
      (Circle.forwardOnWords last distance slots.size).bind fun lastTarget =>
      .add last 1 fun room =>
      .add lastTarget 1 fun targetRoom =>
      let piece := min (min remaining room) targetRoom
      .sub room piece fun source =>
      .sub targetRoom piece fun target =>
      (slots.moveRunOnWords source target piece).bind fun slots =>
      .sub remaining piece fun remaining =>
      shiftPiecesBackwardOnWords start distance rounds slots remaining
    else
      .result (slots, remaining)

@[inherit_doc shiftPiecesBackwardOnWords]
def shiftPiecesBackward (slots : Slots α) (start distance remaining rounds : Nat) :
    Slots α × Nat :=
  (shiftPiecesBackwardOnWords start distance rounds slots remaining).exact

/-- Move the run of slots that begins at `start` by `distance` slots toward the front. The last
argument is the length of the run. No piece is empty, so there are no more pieces than slots. -/
def shiftFrontwardOnWords (slots : Slots α) (start distance length : Nat) : Calculation (Slots α) :=
  (shiftPiecesFrontwardOnWords start distance length length slots 0).bind fun (slots, _) =>
    .result slots

@[inherit_doc shiftFrontwardOnWords]
def shiftFrontward (slots : Slots α) (start distance length : Nat) : Slots α :=
  (slots.shiftFrontwardOnWords start distance length).exact

/-- Move the run of slots that begins at `start` by `distance` slots toward the back. The last
argument is the length of the run. -/
def shiftBackwardOnWords (slots : Slots α) (start distance length : Nat) : Calculation (Slots α) :=
  (shiftPiecesBackwardOnWords start distance length slots length).bind fun (slots, _) =>
    .result slots

@[inherit_doc shiftBackwardOnWords]
def shiftBackward (slots : Slots α) (start distance length : Nat) : Slots α :=
  (slots.shiftBackwardOnWords start distance length).exact

/-- Empty the run of slots that begins at `start`. -/
def clear (slots : Slots α) (start : Nat) : Nat → Slots α
  | 0 => slots
  | length + 1 =>
    let next := Circle.next start slots.size
    (slots.put start none).clear next length

/-- Put `xs` into the slots from `start` on, one after the other. -/
def fillOnWords : List α → Slots α → Nat → Calculation (Slots α)
  | [], slots, _ => .result slots
  | x :: xs, slots, start =>
    (Circle.nextOnWords start slots.size).bind fun next =>
    fillOnWords xs (slots.put start (some x)) next

@[inherit_doc fillOnWords]
def fill (slots : Slots α) (start : Nat) (xs : List α) : Slots α :=
  (fillOnWords xs slots start).exact

@[simp] theorem size_empty (n : Nat) : (empty n : Slots α).size = n := by
  simp [empty]

@[simp] theorem size_put (slots : Slots α) (i : Nat) (content : Option α) :
    (slots.put i content).size = slots.size := by
  simp [put]

@[simp] theorem size_swap (slots : Slots α) (i j : Nat) : (slots.swap i j).size = slots.size := by
  simp [swap]

@[simp] theorem size_reverseRun (slots : Slots α) (i n : Nat) :
    (slots.reverseRun i n).size = slots.size := by
  fun_induction slots.reverseRun i n with
  | case1 => rfl
  | case2 => rfl
  | case3 slots i n ih => exact ih.trans (size_swap ..)

@[simp] theorem size_rotateRun (slots : Slots α) (i k n : Nat) :
    (slots.rotateRun i k n).size = slots.size := by
  simp [rotateRun]

@[simp] theorem size_swapRuns (slots : Slots α) (i j n : Nat) :
    (slots.swapRuns i j n).size = slots.size := by
  induction n generalizing slots i j with
  | zero => rfl
  | succ n ih => simp [swapRuns, ih]

@[simp] theorem exact_moveRunOnWords (slots : Slots α) (source target n : Nat) :
    (slots.moveRunOnWords source target n).exact = slots.moveRun source target n := rfl

/-- Slots that do not overlap those they move to are exchanged for them, others are rotated. -/
theorem moveRun_eq (slots : Slots α) (source target n : Nat) :
    slots.moveRun source target n =
      if n = 0 ∨ source = target then slots
      else if source + n ≤ target ∨ target + n ≤ source then slots.swapRuns source target n
      else if target < source then slots.rotateRun target (source - target) (source + n - target)
      else slots.rotateRun source n (target + n - source) := by
  have others : target + n - source - (target - source) = n ∨ target < source := by omega
  simp only [moveRun, moveRunOnWords, Calculation.exact, Calculation.exact_ite]
  grind

@[simp] theorem size_moveRun (slots : Slots α) (source target n : Nat) :
    (slots.moveRun source target n).size = slots.size := by
  rw [moveRun_eq]
  split
  · rfl
  split
  · exact size_swapRuns ..
  split <;> exact size_rotateRun ..

/-- What one round of a shift toward the front does. -/
theorem shiftPiecesFrontward_step {slots : Slots α} {start distance length moved m rounds : Nat}
    {source target piece : Nat} (size : slots.size = m) (rest : moved < length)
    (hs : Circle.forward start moved m = source) (ht : Circle.backward source distance m = target)
    (hp : piece = min (min (length - moved) (m - source)) (m - target)) :
    slots.shiftPiecesFrontward start distance length moved (rounds + 1) =
      (slots.moveRun source target piece).shiftPiecesFrontward start distance length
        (moved + piece) rounds := by
  subst size hs ht hp
  rw [shiftPiecesFrontward, shiftPiecesFrontwardOnWords, if_pos rest]
  simp only [Calculation.exact, Calculation.exact_bind]
  rfl

theorem shiftPiecesFrontward_of_le {slots : Slots α} {start distance length moved : Nat}
    (h : length ≤ moved) (rounds : Nat) :
    slots.shiftPiecesFrontward start distance length moved rounds = (slots, moved) := by
  cases rounds with
  | zero => rfl
  | succ rounds =>
      rw [shiftPiecesFrontward, shiftPiecesFrontwardOnWords, if_neg (by omega)]
      rfl

/-- What one round of a shift toward the back does. -/
theorem shiftPiecesBackward_step {slots : Slots α} {start distance remaining m rounds : Nat}
    {last target piece : Nat} (size : slots.size = m) (rest : 0 < remaining)
    (hs : Circle.forward start (remaining - 1) m = last)
    (ht : Circle.forward last distance m = target)
    (hp : piece = min (min remaining (last + 1)) (target + 1)) :
    slots.shiftPiecesBackward start distance remaining (rounds + 1) =
      (slots.moveRun (last + 1 - piece) (target + 1 - piece) piece).shiftPiecesBackward start
        distance (remaining - piece) rounds := by
  subst size hs ht hp
  rw [shiftPiecesBackward, shiftPiecesBackwardOnWords, if_pos rest]
  simp only [Calculation.exact, Calculation.exact_bind]
  rfl

theorem shiftPiecesBackward_zero (slots : Slots α) (start distance rounds : Nat) :
    slots.shiftPiecesBackward start distance 0 rounds = (slots, 0) := by
  cases rounds with
  | zero => rfl
  | succ rounds => rfl

@[simp] theorem size_shiftPiecesFrontward (slots : Slots α)
    (start distance length moved rounds : Nat) :
    (slots.shiftPiecesFrontward start distance length moved rounds).1.size = slots.size := by
  induction rounds generalizing slots moved with
  | zero => rfl
  | succ rounds ih =>
      by_cases rest : moved < length
      · rw [shiftPiecesFrontward_step rfl rest rfl rfl rfl, ih, size_moveRun]
      · rw [shiftPiecesFrontward_of_le (Nat.le_of_not_lt rest)]

@[simp] theorem size_shiftPiecesBackward (slots : Slots α) (start distance remaining rounds : Nat) :
    (slots.shiftPiecesBackward start distance remaining rounds).1.size = slots.size := by
  induction rounds generalizing slots remaining with
  | zero => rfl
  | succ rounds ih =>
      rcases Nat.eq_zero_or_pos remaining with rfl | rest
      · rw [shiftPiecesBackward_zero]
      · rw [shiftPiecesBackward_step rfl rest rfl rfl rfl, ih, size_moveRun]

theorem shiftFrontward_eq (slots : Slots α) (start distance length : Nat) :
    slots.shiftFrontward start distance length =
      (slots.shiftPiecesFrontward start distance length 0 length).1 :=
  Calculation.exact_bind ..

theorem shiftBackward_eq (slots : Slots α) (start distance length : Nat) :
    slots.shiftBackward start distance length =
      (slots.shiftPiecesBackward start distance length length).1 :=
  Calculation.exact_bind ..

@[simp] theorem exact_shiftBackwardOnWords (slots : Slots α) (start distance length : Nat) :
    (slots.shiftBackwardOnWords start distance length).exact =
      slots.shiftBackward start distance length := rfl

@[simp] theorem size_shiftFrontward (slots : Slots α) (start distance length : Nat) :
    (slots.shiftFrontward start distance length).size = slots.size := by
  rw [shiftFrontward_eq, size_shiftPiecesFrontward]

@[simp] theorem size_shiftBackward (slots : Slots α) (start distance length : Nat) :
    (slots.shiftBackward start distance length).size = slots.size := by
  rw [shiftBackward_eq, size_shiftPiecesBackward]

@[simp] theorem size_clear (slots : Slots α) (start length : Nat) :
    (slots.clear start length).size = slots.size := by
  induction length generalizing slots start with
  | zero => rfl
  | succ n ih => simp [clear, ih]

theorem fill_cons (slots : Slots α) (start : Nat) (x : α) (xs : List α) :
    slots.fill start (x :: xs) =
      (slots.put start (some x)).fill (Circle.next start slots.size) xs :=
  Calculation.exact_bind ..

@[simp] theorem size_fill (slots : Slots α) (start : Nat) (xs : List α) :
    (slots.fill start xs).size = slots.size := by
  induction xs generalizing slots start with
  | nil => rfl
  | cons x xs ih => simp [fill_cons, ih]

@[simp] theorem at?_empty (n i : Nat) : (empty n : Slots α).at? i = none := by
  simp only [at?, empty, Array.getElem?_replicate]
  split <;> rfl

theorem at?_put (slots : Slots α) (i j : Nat) (content : Option α) :
    (slots.put i content).at? j =
      if i = j ∧ i < slots.size then content else slots.at? j := by
  simp only [at?, put, Array.getElem?_setIfInBounds]
  by_cases h : i = j
  · subst h
    by_cases hi : i < slots.size
    · simp [hi]
    · simp [hi]
  · simp [h]

theorem at?_eq_none_of_size_le (slots : Slots α) {i : Nat} (h : slots.size ≤ i) :
    slots.at? i = none := by
  simp [at?, h]

end Slots

end RingDeque
