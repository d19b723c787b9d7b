import RingDeque.Deque.Positional
import RingDeque.Fault

/-!
# Two-way cursors

A two-way cursor stands between two elements. It moves in both directions, and it replaces, removes
and inserts elements at its place. It remembers where the elements of the deque began and ended and
how large the buffer was, and refuses to work on a deque for which this is no longer so.

Its own removals and insertions move one end of the deque or give it a new buffer. The cursor takes
over the new state of what moved and corrects its position, so that it stays between the same two
elements.
-/

namespace RingDeque

/-- A cursor between two elements. -/
structure TwoWayCursor where
  /-- The slot of the element behind the cursor. -/
  position : Nat
  /-- The deque's `head` as the cursor knows it. -/
  start : Nat
  /-- The deque's `tail` as the cursor knows it. -/
  stop : Nat
  /-- The deque's slot count as the cursor knows it. -/
  slotCount : Nat
  /-- The slot of the element returned last, unless the cursor removed it or inserted another
  since. -/
  last : Option Nat
  deriving DecidableEq, Repr

namespace TwoWayCursor

variable {α : Type u} {σ : Type v}

/-- Whether there is an element behind the cursor. -/
def hasNext (c : TwoWayCursor) : Bool :=
  c.position != c.stop

/-- Whether there is an element in front of the cursor. -/
def hasPrevious (c : TwoWayCursor) : Bool :=
  c.position != c.start

/-- The index of the element behind the cursor. -/
def nextIndexOnWords (c : TwoWayCursor) : Calculation Nat :=
  Circle.stepsOnWords c.start c.position c.slotCount

@[inherit_doc nextIndexOnWords]
def nextIndex (c : TwoWayCursor) : Nat :=
  c.nextIndexOnWords.exact

/-- The index of the element in front of the cursor. -/
def previousIndex?OnWords (c : TwoWayCursor) : Calculation (Option Nat) :=
  c.nextIndexOnWords.bind fun index =>
  if index = 0 then .result none else .sub index 1 fun before => .result (some before)

@[inherit_doc previousIndex?OnWords]
def previousIndex? (c : TwoWayCursor) : Option Nat :=
  c.previousIndex?OnWords.exact

theorem previousIndex?_eq (c : TwoWayCursor) :
    c.previousIndex? = if c.nextIndex = 0 then none else some (c.nextIndex - 1) := by
  rw [previousIndex?, previousIndex?OnWords, Calculation.exact_bind]
  exact Calculation.exact_ite ..

/-- Whether the deque is as the cursor knows it. -/
def agrees (c : TwoWayCursor) (d : Deque α) : Bool :=
  d.head == c.start && d.tail == c.stop && d.slotCount == c.slotCount

/-- The element in a slot that the cursor takes to be occupied. -/
def element (d : Deque α) (p : Nat) : Except Error α :=
  match d.slot p with
  | some x => .ok x
  | none => .error .concurrentModification

/-- Move past the next element and return it. -/
def nextOnWords (c : TwoWayCursor) (d : Deque α) : Calculation (Except Error α × TwoWayCursor) :=
  if c.position = c.stop then
    .result (.error .noSuchElement, c)
  else if c.agrees d then
    (Circle.nextOnWords c.position c.slotCount).bind fun position =>
    .result (element d c.position, { c with position := position, last := some c.position })
  else
    .result (.error .concurrentModification, c)

@[inherit_doc nextOnWords]
def next (c : TwoWayCursor) (d : Deque α) : Except Error α × TwoWayCursor :=
  (c.nextOnWords d).exact

theorem next_eq (c : TwoWayCursor) (d : Deque α) :
    c.next d =
      if c.position = c.stop then
        (.error .noSuchElement, c)
      else if c.agrees d then
        (element d c.position, { c with
          position := Circle.next c.position c.slotCount
          last := some c.position })
      else
        (.error .concurrentModification, c) := by
  refine (Calculation.exact_ite ..).trans (ite_congr rfl (fun _ => rfl) fun _ => ?_)
  refine (Calculation.exact_ite ..).trans (ite_congr rfl (fun _ => ?_) fun _ => rfl)
  exact Calculation.exact_bind ..

/-- Move before the previous element and return it. -/
def previousOnWords (c : TwoWayCursor) (d : Deque α) :
    Calculation (Except Error α × TwoWayCursor) :=
  if c.position = c.start then
    .result (.error .noSuchElement, c)
  else if c.agrees d then
    (Circle.prevOnWords c.position c.slotCount).bind fun p =>
    .result (element d p, { c with position := p, last := some p })
  else
    .result (.error .concurrentModification, c)

@[inherit_doc previousOnWords]
def previous (c : TwoWayCursor) (d : Deque α) : Except Error α × TwoWayCursor :=
  (c.previousOnWords d).exact

theorem previous_eq (c : TwoWayCursor) (d : Deque α) :
    c.previous d =
      if c.position = c.start then
        (.error .noSuchElement, c)
      else if c.agrees d then
        let p := Circle.prev c.position c.slotCount
        (element d p, { c with position := p, last := some p })
      else
        (.error .concurrentModification, c) := by
  refine (Calculation.exact_ite ..).trans (ite_congr rfl (fun _ => rfl) fun _ => ?_)
  refine (Calculation.exact_ite ..).trans (ite_congr rfl (fun _ => ?_) fun _ => rfl)
  exact Calculation.exact_bind ..

/-- Show the elements of `count` slots from the cursor on to `action`. The cursor moves past each
completed call. -/
def visitOnWords (action : Callback σ α Unit) (d : Deque α) :
    Nat → TwoWayCursor → σ → Calculation ((Except Fault Unit × TwoWayCursor) × σ)
  | 0, c, s => .result ((.ok (), c), s)
  | count + 1, c, s =>
    match d.slot c.position with
    | none =>
      (Circle.nextOnWords c.position c.slotCount).bind fun position =>
      visitOnWords action d count { c with position := position, last := some c.position } s
    | some x =>
      match action x s with
      | (.error fault, s) => .result ((.error fault, c), s)
      | (.ok (), s) =>
        (Circle.nextOnWords c.position c.slotCount).bind fun position =>
        visitOnWords action d count { c with position := position, last := some c.position } s

@[inherit_doc visitOnWords]
def visit (action : Callback σ α Unit) (d : Deque α) (count : Nat) (c : TwoWayCursor) (s : σ) :
    (Except Fault Unit × TwoWayCursor) × σ :=
  (visitOnWords action d count c s).exact

theorem visit_succ (action : Callback σ α Unit) (d : Deque α) (count : Nat) (c : TwoWayCursor)
    (s : σ) :
    visit action d (count + 1) c s =
      let past := { c with
        position := Circle.next c.position c.slotCount
        last := some c.position }
      match d.slot c.position with
      | none => visit action d count past s
      | some x =>
        match action x s with
        | (.error fault, s) => ((.error fault, c), s)
        | (.ok (), s) => visit action d count past s := by
  rw [visit, visitOnWords]
  cases d.slot c.position with
  | none => exact Calculation.exact_bind ..
  | some x =>
      dsimp only
      rcases action x s with ⟨fault | ⟨⟩, s⟩
      · rfl
      · exact Calculation.exact_bind ..

/-- Show every element behind the cursor to `action` and move to the back. The walk ends where it
meets the slot `stop`: the number of steps is not computed. -/
def forEachRemainingOnWords (action : Callback σ α Unit) (c : TwoWayCursor) (d : Deque α) (s : σ) :
    Calculation ((Except Fault (Except Error Unit) × TwoWayCursor) × σ) :=
  if c.agrees d then
    (visitOnWords action d (Circle.steps c.position c.stop c.slotCount) c s).bind fun outcome =>
    .result <|
      match outcome with
      | ((.ok (), c), s) => ((.ok (.ok ()), c), s)
      | ((.error fault, c), s) => ((.error fault, c), s)
  else
    .result ((.ok (.error .concurrentModification), c), s)

@[inherit_doc forEachRemainingOnWords]
def forEachRemaining (action : Callback σ α Unit) (c : TwoWayCursor) (d : Deque α) (s : σ) :
    (Except Fault (Except Error Unit) × TwoWayCursor) × σ :=
  (c.forEachRemainingOnWords action d s).exact

theorem forEachRemaining_eq (action : Callback σ α Unit) (c : TwoWayCursor) (d : Deque α) (s : σ) :
    c.forEachRemaining action d s =
      if c.agrees d then
        match visit action d (Circle.steps c.position c.stop c.slotCount) c s with
        | ((.ok (), c), s) => ((.ok (.ok ()), c), s)
        | ((.error fault, c), s) => ((.error fault, c), s)
      else
        ((.ok (.error .concurrentModification), c), s) := by
  refine (Calculation.exact_ite ..).trans (ite_congr rfl (fun _ => ?_) fun _ => rfl)
  exact Calculation.exact_bind ..

/-- Where the cursor stands after the element in slot `removed` was taken out of `d`. If that
element stood behind the cursor, then the cursor is at the gap: it stays when the elements behind it
come up, and goes on when those in front of it move away. Otherwise it is the other way round. -/
def afterRemovalOnWords (c : TwoWayCursor) (removed : Nat) (closed : Closed) (d : Deque α) :
    Calculation TwoWayCursor :=
  let wasBehind := removed == c.position
  match closed with
  | .tail =>
    if wasBehind then
      .result { c with stop := d.tail, last := none }
    else
      (Circle.prevOnWords c.position c.slotCount).bind fun position =>
      .result { c with position := position, stop := d.tail, last := none }
  | .head =>
    if wasBehind then
      (Circle.nextOnWords c.position c.slotCount).bind fun position =>
      .result { c with position := position, start := d.head, last := none }
    else
      .result { c with start := d.head, last := none }

@[inherit_doc afterRemovalOnWords]
def afterRemoval (c : TwoWayCursor) (removed : Nat) (closed : Closed) (d : Deque α) :
    TwoWayCursor :=
  (c.afterRemovalOnWords removed closed d).exact

theorem afterRemoval_eq (c : TwoWayCursor) (removed : Nat) (closed : Closed) (d : Deque α) :
    c.afterRemoval removed closed d =
      let wasBehind := removed == c.position
      match closed with
      | .tail => { c with
          position := if wasBehind then c.position else Circle.prev c.position c.slotCount
          stop := d.tail
          last := none }
      | .head => { c with
          position := if wasBehind then Circle.next c.position c.slotCount else c.position
          start := d.head
          last := none } := by
  unfold afterRemoval afterRemovalOnWords
  cases closed with
  | tail =>
      cases removed == c.position with
      | true => rfl
      | false => exact Calculation.exact_bind ..
  | head =>
      cases removed == c.position with
      | true => exact Calculation.exact_bind ..
      | false => rfl

/-- Remove the element returned last. -/
def removeOnWords (c : TwoWayCursor) (d : Deque α) :
    Calculation (Except Error α × TwoWayCursor × Deque α) :=
  match c.last with
  | none => .result (.error .noCurrentElement, c, d)
  | some p =>
    if c.agrees d then
      (d.deleteOnWords p).bind fun
      | (none, d) => .result (.error .concurrentModification, c, d)
      | (some (x, closed), d) => (c.afterRemovalOnWords p closed d).bind fun c =>
        .result (.ok x, c, d)
    else
      .result (.error .concurrentModification, c, d)

@[inherit_doc removeOnWords]
def remove (c : TwoWayCursor) (d : Deque α) : Except Error α × TwoWayCursor × Deque α :=
  (c.removeOnWords d).exact

theorem remove_eq (c : TwoWayCursor) (d : Deque α) :
    c.remove d =
      match c.last with
      | none => (.error .noCurrentElement, c, d)
      | some p =>
        if c.agrees d then
          match d.delete p with
          | (none, d) => (.error .concurrentModification, c, d)
          | (some (x, closed), d) => (.ok x, c.afterRemoval p closed d, d)
        else
          (.error .concurrentModification, c, d) := by
  rw [remove, removeOnWords]
  cases c.last with
  | none => rfl
  | some p =>
      refine (Calculation.exact_ite ..).trans (ite_congr rfl (fun _ => ?_) fun _ => rfl)
      rw [Calculation.exact_bind, Deque.exact_deleteOnWords]
      rcases d.delete p with ⟨_ | ⟨x, closed⟩, d⟩
      · rfl
      · exact Calculation.exact_bind ..

/-- Put `x` in place of the element returned last, and return that element. -/
def set (x : α) (c : TwoWayCursor) (d : Deque α) : Except Error α × Deque α :=
  match c.last with
  | none => (.error .noCurrentElement, d)
  | some p =>
    if c.agrees d then
      match d.replaceSlot p x with
      | (some y, d) => (.ok y, d)
      | (none, d) => (.error .concurrentModification, d)
    else
      (.error .concurrentModification, d)

/-- Where the cursor stands after an element was inserted in front of it, which made `d`: behind the
new element. -/
def afterInsertionOnWords (c : TwoWayCursor) (shift : Shift) (d : Deque α) :
    Calculation TwoWayCursor :=
  match shift with
  | .reallocated =>
    c.nextIndexOnWords.bind fun index =>
    .add index 1 fun position =>
    .result { position := position, start := d.head, stop := d.tail, slotCount :=
      d.slotCount, last := none }
  | .tail =>
    (Circle.nextOnWords c.position c.slotCount).bind fun position =>
    .result { c with position := position, stop := d.tail, last := none }
  | .head => .result { c with start := d.head, last := none }

@[inherit_doc afterInsertionOnWords]
def afterInsertion (c : TwoWayCursor) (shift : Shift) (d : Deque α) : TwoWayCursor :=
  (c.afterInsertionOnWords shift d).exact

theorem afterInsertion_eq (c : TwoWayCursor) (shift : Shift) (d : Deque α) :
    c.afterInsertion shift d =
      match shift with
      | .reallocated => {
          position := c.nextIndex + 1
          start := d.head
          stop := d.tail
          slotCount := d.slotCount
          last := none }
      | .tail => { c with
          position := Circle.next c.position c.slotCount
          stop := d.tail
          last := none }
      | .head => { c with start := d.head, last := none } := by
  cases shift with
  | reallocated => exact Calculation.exact_bind ..
  | tail => exact Calculation.exact_bind ..
  | head => rfl

/-- Insert `x` in front of the cursor. -/
def addOnWords (a : Allocator) (x : α) (c : TwoWayCursor) (d : Deque α) :
    Calculation (Except Error Unit × TwoWayCursor × Deque α) :=
  if c.agrees d then
    (d.insertAtOnWords a c.position x).bind fun
    | (.ok shift, d) => (c.afterInsertionOnWords shift d).bind fun c => .result (.ok (), c, d)
    | (.error e, d) => .result (.error e, c, d)
  else
    .result (.error .concurrentModification, c, d)

@[inherit_doc addOnWords]
def add (a : Allocator) (x : α) (c : TwoWayCursor) (d : Deque α) :
    Except Error Unit × TwoWayCursor × Deque α :=
  (c.addOnWords a x d).exact

theorem add_eq (a : Allocator) (x : α) (c : TwoWayCursor) (d : Deque α) :
    c.add a x d =
      if c.agrees d then
        match d.insertAt a c.position x with
        | (.ok shift, d) => (.ok (), c.afterInsertion shift d, d)
        | (.error e, d) => (.error e, c, d)
      else
        (.error .concurrentModification, c, d) := by
  refine (Calculation.exact_ite ..).trans (ite_congr rfl (fun _ => ?_) fun _ => rfl)
  rw [Calculation.exact_bind, Deque.exact_insertAtOnWords]
  rcases d.insertAt a c.position x with ⟨e | shift, d⟩
  · rfl
  · exact Calculation.exact_bind ..

end TwoWayCursor

/-- A cursor in front of the element at `index`, or at the back if `index` is the length. -/
def Deque.cursorAtOnWords {α : Type u} (index : Nat) (d : Deque α) :
    Calculation (Except Error TwoWayCursor) :=
  d.lengthOnWords.bind fun length =>
  if length < index then
    .result (.error (.indexOutOfBounds index length))
  else
    (d.positionOnWords index).bind fun position =>
    .result (.ok ⟨position, d.head, d.tail, d.slotCount, none⟩)

@[inherit_doc Deque.cursorAtOnWords]
def Deque.cursorAt {α : Type u} (index : Nat) (d : Deque α) : Except Error TwoWayCursor :=
  (d.cursorAtOnWords index).exact

theorem Deque.cursorAt_eq {α : Type u} (index : Nat) (d : Deque α) :
    d.cursorAt index =
      if d.length < index then
        .error (d.outOfBounds index)
      else
        .ok ⟨d.position index, d.head, d.tail, d.slotCount, none⟩ := by
  rw [cursorAt, cursorAtOnWords, Calculation.exact_bind]
  refine (Calculation.exact_ite ..).trans (ite_congr rfl (fun _ => rfl) fun _ => ?_)
  exact Calculation.exact_bind ..

end RingDeque
