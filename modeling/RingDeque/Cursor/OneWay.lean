import RingDeque.Deque.Positional
import RingDeque.Fault

/-!
# One-way cursors

A cursor holds positions only, never the deque: each step is told the deque. So the deque stays
usable in between, and the cursor can remove through it the element that it returned last. A cursor
whose deque was changed by others in the meantime may notice that the slot it points to is empty,
and then reports a conflict. But before it shows all that it has left it counts what is ahead of it,
and that goes wrong if its slot lies too far beyond the end of a buffer that has become smaller.

A removal slides the elements on one side over the gap. If these are the elements that the cursor
has yet to visit, it moves with them by one slot.
-/

namespace RingDeque

/-- The order in which a cursor visits the elements. -/
inductive Direction where
  /-- Front to back. -/
  | forward
  /-- Back to front. -/
  | backward
  deriving DecidableEq, Repr

/-- The slot that follows `p` in this direction. -/
def Direction.stepOnWords (direction : Direction) (p slotCount : Nat) : Calculation Nat :=
  match direction with
  | .forward => Circle.nextOnWords p slotCount
  | .backward => Circle.prevOnWords p slotCount

@[inherit_doc Direction.stepOnWords]
def Direction.step (direction : Direction) (p slotCount : Nat) : Nat :=
  (direction.stepOnWords p slotCount).exact

theorem Direction.step_forward (p slotCount : Nat) :
    Direction.forward.step p slotCount = Circle.next p slotCount := rfl

theorem Direction.step_backward (p slotCount : Nat) :
    Direction.backward.step p slotCount = Circle.prev p slotCount := rfl

/-- Every step back is a difference that does not go below zero. -/
theorem Direction.natural?_stepOnWords (direction : Direction) {slotCount : Nat}
    (h : 0 < slotCount) (p : Nat) :
    (direction.stepOnWords p slotCount).natural? = some (direction.step p slotCount) := by
  cases direction with
  | forward => rfl
  | backward =>
      rw [step_backward, Circle.prev_eq, stepOnWords, Circle.prevOnWords]
      split
      · exact if_pos h
      · next inside => exact if_pos (Nat.pos_of_ne_zero inside)

/-- A cursor that visits the elements in one direction. -/
structure OneWayCursor where
  direction : Direction
  /-- The slot of the element to be returned next. -/
  position : Nat
  /-- How many elements are left to visit. -/
  remaining : Nat
  /-- The slot of the element returned last, unless it was removed. -/
  last : Option Nat
  deriving DecidableEq, Repr

namespace OneWayCursor

variable {α : Type u} {σ : Type v}

/-- A cursor in front of all elements. -/
def startOnWords (direction : Direction) (d : Deque α) : Calculation OneWayCursor :=
  (match direction with
    | .forward => Calculation.result d.head
    | .backward => Circle.prevOnWords d.tail d.slotCount).bind fun position =>
  d.lengthOnWords.bind fun length => .result ⟨direction, position, length, none⟩

@[inherit_doc startOnWords]
def start (direction : Direction) (d : Deque α) : OneWayCursor :=
  (startOnWords direction d).exact

theorem start_eq (direction : Direction) (d : Deque α) :
    start direction d = {
      direction := direction
      position :=
        match direction with
        | .forward => d.head
        | .backward => Circle.prev d.tail d.slotCount
      remaining := d.length
      last := none } := by
  cases direction with
  | forward => exact d.lengthOnWords.exact_bind _
  | backward => exact (Calculation.exact_bind ..).trans (Calculation.exact_bind ..)

@[simp] theorem direction_start (direction : Direction) (d : Deque α) :
    (start direction d).direction = direction := by
  rw [start_eq]

/-- Whether elements are left to visit. -/
def hasNext (c : OneWayCursor) : Bool :=
  0 < c.remaining

/-- Return the next element. -/
def nextOnWords (c : OneWayCursor) (d : Deque α) : Calculation (Except Error α × OneWayCursor) :=
  if c.remaining = 0 then
    .result (.error .noSuchElement, c)
  else
    match d.slot c.position with
    | none => .result (.error .concurrentModification, c)
    | some x =>
      (c.direction.stepOnWords c.position d.slotCount).bind fun position =>
      .sub c.remaining 1 fun remaining =>
      .result (.ok x,
        { c with position := position, remaining := remaining, last := some c.position })

@[inherit_doc nextOnWords]
def next (c : OneWayCursor) (d : Deque α) : Except Error α × OneWayCursor :=
  (c.nextOnWords d).exact

theorem next_eq (c : OneWayCursor) (d : Deque α) :
    c.next d =
      if c.remaining = 0 then
        (.error .noSuchElement, c)
      else
        match d.slot c.position with
        | none => (.error .concurrentModification, c)
        | some x =>
          (.ok x, { c with
            position := c.direction.step c.position d.slotCount
            remaining := c.remaining - 1
            last := some c.position }) := by
  refine (Calculation.exact_ite ..).trans (ite_congr rfl (fun _ => rfl) fun _ => ?_)
  cases d.slot c.position with
  | none => rfl
  | some x => exact Calculation.exact_bind ..

/-- The cursor moves along when the elements ahead of it slide over a gap. -/
def followOnWords (c : OneWayCursor) (closed : Closed) (slotCount : Nat) :
    Calculation OneWayCursor :=
  match c.direction, closed with
  | .forward, .tail =>
    (Circle.prevOnWords c.position slotCount).bind fun position =>
    .result { c with position := position }
  | .backward, .head =>
    (Circle.nextOnWords c.position slotCount).bind fun position =>
    .result { c with position := position }
  | .forward, .head => .result c
  | .backward, .tail => .result c

@[inherit_doc followOnWords]
def follow (c : OneWayCursor) (closed : Closed) (slotCount : Nat) : OneWayCursor :=
  (c.followOnWords closed slotCount).exact

theorem follow_eq (c : OneWayCursor) (closed : Closed) (slotCount : Nat) :
    c.follow closed slotCount =
      match c.direction, closed with
      | .forward, .tail => { c with position := Circle.prev c.position slotCount }
      | .backward, .head => { c with position := Circle.next c.position slotCount }
      | .forward, .head => c
      | .backward, .tail => c := by
  obtain ⟨direction, position, remaining, last⟩ := c
  cases direction with
  | forward =>
      cases closed with
      | tail => exact Calculation.exact_bind ..
      | head => rfl
  | backward =>
      cases closed with
      | tail => rfl
      | head => exact Calculation.exact_bind ..

/-- Remove the element returned last. In any case there is none afterwards. -/
def removeOnWords (c : OneWayCursor) (d : Deque α) :
    Calculation (Except Error α × OneWayCursor × Deque α) :=
  match c.last with
  | none => .result (.error .noCurrentElement, c, d)
  | some p =>
    let c := { c with last := none }
    (d.deleteOnWords p).bind fun
    | (none, d) => .result (.error .concurrentModification, c, d)
    | (some (x, closed), d) => (c.followOnWords closed d.slotCount).bind fun c =>
      .result (.ok x, c, d)

@[inherit_doc removeOnWords]
def remove (c : OneWayCursor) (d : Deque α) : Except Error α × OneWayCursor × Deque α :=
  (c.removeOnWords d).exact

theorem remove_eq (c : OneWayCursor) (d : Deque α) :
    c.remove d =
      match c.last with
      | none => (.error .noCurrentElement, c, d)
      | some p =>
        let c := { c with last := none }
        match d.delete p with
        | (none, d) => (.error .concurrentModification, c, d)
        | (some (x, closed), d) => (.ok x, c.follow closed d.slotCount, d) := by
  rw [remove, removeOnWords]
  cases c.last with
  | none => rfl
  | some p =>
      dsimp only
      rw [Calculation.exact_bind, Deque.exact_deleteOnWords]
      rcases d.delete p with ⟨_ | ⟨x, closed⟩, d⟩
      · rfl
      · exact Calculation.exact_bind ..

/-- How many elements a cursor at this position has ahead of it. -/
def aheadOnWords (c : OneWayCursor) (d : Deque α) : Calculation Nat :=
  match c.direction with
  | .forward => Circle.stepsOnWords c.position d.tail d.slotCount
  | .backward => (Circle.stepsOnWords d.head c.position d.slotCount).bind fun before =>
    .add before 1 .result

/-- How many elements a cursor at this position has ahead of it. There is no such number if the
count goes below zero. -/
def ahead? (c : OneWayCursor) (d : Deque α) : Option Nat :=
  (c.aheadOnWords d).natural?

theorem ahead?_eq (c : OneWayCursor) (d : Deque α) :
    c.ahead? d =
      match c.direction with
      | .forward => Circle.steps? c.position d.tail d.slotCount
      | .backward => (Circle.steps? d.head c.position d.slotCount).map (· + 1) := by
  obtain ⟨direction, position, remaining, last⟩ := c
  cases direction with
  | forward => rfl
  | backward =>
      refine (Calculation.natural?_bind ..).trans ?_
      dsimp only
      rw [Circle.steps?]
      cases (Circle.stepsOnWords d.head position d.slotCount).natural? with
      | none => rfl
      | some before => rfl

/-- Show the elements of `count` slots from `p` on to `action`. The cursor notes the slot of each
completed call, but moves only when all are done. -/
def visitOnWords (action : Callback σ α Unit) (d : Deque α) :
    Nat → Nat → OneWayCursor → σ → Calculation ((Except Fault Unit × OneWayCursor) × σ)
  | 0, p, c, s => .result ((.ok (), { c with position := p }), s)
  | count + 1, p, c, s =>
    match d.slot p with
    | none =>
      (c.direction.stepOnWords p d.slotCount).bind fun next =>
      visitOnWords action d count next { c with last := some p } s
    | some x =>
      match action x s with
      | (.error fault, s) => .result ((.error fault, c), s)
      | (.ok (), s) =>
        (c.direction.stepOnWords p d.slotCount).bind fun next =>
        visitOnWords action d count next { c with last := some p } s

@[inherit_doc visitOnWords]
def visit (action : Callback σ α Unit) (d : Deque α) (count p : Nat) (c : OneWayCursor) (s : σ) :
    (Except Fault Unit × OneWayCursor) × σ :=
  (visitOnWords action d count p c s).exact

theorem visit_succ (action : Callback σ α Unit) (d : Deque α) (count p : Nat) (c : OneWayCursor)
    (s : σ) :
    visit action d (count + 1) p c s =
      match d.slot p with
      | none => visit action d count (c.direction.step p d.slotCount) { c with last := some p } s
      | some x =>
        match action x s with
        | (.error fault, s) => ((.error fault, c), s)
        | (.ok (), s) =>
          visit action d count (c.direction.step p d.slotCount) { c with last := some p } s := by
  rw [visit, visitOnWords]
  cases d.slot p with
  | none => exact Calculation.exact_bind ..
  | some x =>
      dsimp only
      rcases action x s with ⟨fault | ⟨⟩, s⟩
      · rfl
      · exact Calculation.exact_bind ..

theorem natural?_visitOnWords (action : Callback σ α Unit) {d : Deque α} (h : 0 < d.slotCount)
    (count p : Nat) (c : OneWayCursor) (s : σ) :
    (visitOnWords action d count p c s).natural? = some (visit action d count p c s) := by
  induction count generalizing p c s with
  | zero => rfl
  | succ count ih =>
      have step := c.direction.natural?_stepOnWords h p
      rw [visit_succ, visitOnWords]
      cases d.slot p with
      | none => exact (Calculation.natural?_bind_of_eq_some step _).trans (ih ..)
      | some x =>
          dsimp only
          rcases action x s with ⟨fault | ⟨⟩, s⟩
          · rfl
          · exact (Calculation.natural?_bind_of_eq_some step _).trans (ih ..)

/-- Show all elements that are left to `action`. Nothing is left afterwards, whatever happens. If
the number of elements ahead is not the number of those that are left, the deque has changed, and
`action` sees none of them. The elements ahead are counted before anything is known about the
slot. -/
def forEachRemainingOnWords (action : Callback σ α Unit) (c : OneWayCursor) (d : Deque α) (s : σ) :
    Calculation ((Except Fault (Except Error Unit) × OneWayCursor) × σ) :=
  let stopped := { c with remaining := 0 }
  if c.remaining = 0 then
    .result ((.ok (.ok ()), stopped), s)
  else
    (c.aheadOnWords d).bind fun ahead =>
    if (d.slot c.position).isNone || ahead != c.remaining then
      .result ((.ok (.error .concurrentModification), stopped), s)
    else
      (visitOnWords action d c.remaining c.position stopped s).bind fun outcome =>
      .result <|
        match outcome with
        | ((.ok (), c), s) => ((.ok (.ok ()), c), s)
        | ((.error fault, c), s) => ((.error fault, c), s)

/-- Show all elements that are left to `action`, as `forEachRemainingOnWords` says. The only
difference on the way that can go below zero is the count of the elements ahead; that is a fault,
before anything is shown. -/
def forEachRemaining (action : Callback σ α Unit) (c : OneWayCursor) (d : Deque α) (s : σ) :
    (Except Fault (Except Error Unit) × OneWayCursor) × σ :=
  (c.forEachRemainingOnWords action d s).natural?.getD
    ((.error .belowZero, { c with remaining := 0 }), s)

theorem forEachRemaining_eq (action : Callback σ α Unit) (c : OneWayCursor) (d : Deque α) (s : σ) :
    c.forEachRemaining action d s =
      let stopped := { c with remaining := 0 }
      if c.remaining = 0 then
        ((.ok (.ok ()), stopped), s)
      else
        match c.ahead? d with
        | none => ((.error .belowZero, stopped), s)
        | some ahead =>
          if (d.slot c.position).isNone || ahead != c.remaining then
            ((.ok (.error .concurrentModification), stopped), s)
          else
            match visit action d c.remaining c.position stopped s with
            | ((.ok (), c), s) => ((.ok (.ok ()), c), s)
            | ((.error fault, c), s) => ((.error fault, c), s) := by
  rw [forEachRemaining, forEachRemainingOnWords]
  dsimp only
  split
  · rfl
  rw [Calculation.natural?_bind, ← ahead?]
  cases c.ahead? d with
  | none => rfl
  | some ahead =>
      dsimp only [Option.bind_some]
      split
      · rfl
      · next agrees =>
          have room : 0 < d.slotCount := by
            refine Nat.pos_of_ne_zero fun empty => agrees ?_
            rw [Deque.slot_eq_none_of_le (empty ▸ Nat.zero_le _)]
            rfl
          rw [Calculation.natural?_bind_of_eq_some (natural?_visitOnWords action room ..)]
          rfl

end OneWayCursor

/-- A cursor that visits the elements front to back. -/
def Deque.cursor {α : Type u} (d : Deque α) : OneWayCursor :=
  .start .forward d

/-- A cursor that visits the elements back to front. -/
def Deque.descendingCursor {α : Type u} (d : Deque α) : OneWayCursor :=
  .start .backward d

end RingDeque
