import RingDeque.Deque.Ends

/-!
# Access by position

Elements are numbered from the front. Reading and replacing take the same time everywhere. An
insertion or a removal moves only the elements on one side of its place: the fewer of the two, or
those behind it when both sides are equal.

`insertAt` and `delete` work on slots and say which end of the deque moved. Cursors need that to
follow the elements.
-/

namespace RingDeque

/-- What an insertion moved. -/
inductive Shift where
  /-- All elements went to a fresh buffer, from slot `0` on. -/
  | reallocated
  /-- The elements in front of the new one, and `head` with them. -/
  | head
  /-- The elements behind the new one, and `tail` with them. -/
  | tail
  deriving DecidableEq, Repr

/-- What a removal moved to close the gap. -/
inductive Closed where
  /-- The elements in front of the gap, and `head` with them. -/
  | head
  /-- The elements behind the gap, and `tail` with them. -/
  | tail
  deriving DecidableEq, Repr

namespace Deque

variable {α : Type u}

/-- Insert `x` so that it stands immediately in front of slot `p`, which may be `tail`. -/
def insertAtOnWords (a : Allocator) (p : Nat) (x : α) (d : Deque α) :
    Calculation (Except Error Shift × Deque α) :=
  let m := d.slotCount
  (Circle.stepsOnWords d.head p m).bind fun front =>
  (Circle.stepsOnWords p d.tail m).bind fun back =>
  .add front back fun length =>
  .add length 1 fun occupied =>
  if occupied = m then
    (d.grownSlotCountOnWords a 1).bind fun
    | .error e => .result (.error e, d)
    | .ok count =>
      (d.relayoutOnWords a count front [x]).bind fun outcome =>
      .result <|
        match outcome with
        | (.ok (), d) => (.ok .reallocated, d)
        | (.error e, d) => (.error e, d)
  else if front < back then
    (d.slots.shiftFrontwardOnWords d.head 1 front).bind fun slots =>
    (Circle.prevOnWords d.head m).bind fun head =>
    (Circle.prevOnWords p m).bind fun gap =>
    .result (.ok .head, { d with slots := slots.put gap (some x), head := head })
  else
    (d.slots.shiftBackwardOnWords p 1 back).bind fun slots =>
    (Circle.nextOnWords d.tail m).bind fun tail =>
    .result (.ok .tail, { d with slots := slots.put p (some x), tail := tail })

@[inherit_doc insertAtOnWords]
def insertAt (a : Allocator) (p : Nat) (x : α) (d : Deque α) : Except Error Shift × Deque α :=
  (d.insertAtOnWords a p x).exact

@[simp] theorem exact_insertAtOnWords (a : Allocator) (p : Nat) (x : α) (d : Deque α) :
    (d.insertAtOnWords a p x).exact = d.insertAt a p x := rfl

theorem insertAt_eq (a : Allocator) (p : Nat) (x : α) (d : Deque α) :
    d.insertAt a p x =
      let m := d.slotCount
      let front := Circle.steps d.head p m
      let back := Circle.steps p d.tail m
      if front + back + 1 = m then
        match d.grownSlotCount a 1 with
        | .error e => (.error e, d)
        | .ok count =>
          match d.relayout a count front [x] with
          | (.ok (), d) => (.ok .reallocated, d)
          | (.error e, d) => (.error e, d)
      else if front < back then
        (.ok .head, { d with
          slots := (d.slots.shiftFrontward d.head 1 front).put (Circle.prev p m) (some x)
          head := Circle.prev d.head m })
      else
        (.ok .tail, { d with
          slots := (d.slots.shiftBackward p 1 back).put p (some x)
          tail := Circle.next d.tail m }) := by
  simp only [insertAt, insertAtOnWords, Calculation.exact, Calculation.exact_bind,
    Circle.exact_stepsOnWords]
  refine (Calculation.exact_ite ..).trans (ite_congr rfl (fun _ => ?_) fun _ => ?_)
  · rw [Calculation.exact_bind, exact_grownSlotCountOnWords]
    cases d.grownSlotCount a 1 with
    | error e => rfl
    | ok count => exact Calculation.exact_bind ..
  · refine (Calculation.exact_ite ..).trans (ite_congr rfl (fun _ => ?_) fun _ => ?_)
    · simp only [Calculation.exact, Calculation.exact_bind]
      rfl
    · simp only [Calculation.exact, Calculation.exact_bind]
      rfl

/-- Remove the element in slot `p`, if that slot holds one. -/
def deleteOnWords (p : Nat) (d : Deque α) : Calculation (Option (α × Closed) × Deque α) :=
  match d.slot p with
  | none => .result (none, d)
  | some x =>
    let m := d.slotCount
    let slots := d.slots.put p none
    (Circle.stepsOnWords d.head p m).bind fun front =>
    (Circle.stepsOnWords p d.tail m).bind fun behind =>
    .sub behind 1 fun back =>
    if front < back then
      (slots.shiftBackwardOnWords d.head 1 front).bind fun slots =>
      (Circle.nextOnWords d.head m).bind fun head =>
      .result (some (x, .head), { d with slots := slots, head := head })
    else
      (Circle.nextOnWords p m).bind fun next =>
      (slots.shiftFrontwardOnWords next 1 back).bind fun slots =>
      (Circle.prevOnWords d.tail m).bind fun tail =>
      .result (some (x, .tail), { d with slots := slots, tail := tail })

@[inherit_doc deleteOnWords]
def delete (p : Nat) (d : Deque α) : Option (α × Closed) × Deque α :=
  (d.deleteOnWords p).exact

@[simp] theorem exact_deleteOnWords (p : Nat) (d : Deque α) :
    (d.deleteOnWords p).exact = d.delete p := rfl

theorem delete_eq (p : Nat) (d : Deque α) :
    d.delete p =
      match d.slot p with
      | none => (none, d)
      | some x =>
        let m := d.slotCount
        let slots := d.slots.put p none
        let front := Circle.steps d.head p m
        let back := Circle.steps p d.tail m - 1
        if front < back then
          (some (x, .head), { d with
            slots := slots.shiftBackward d.head 1 front
            head := Circle.next d.head m })
        else
          (some (x, .tail), { d with
            slots := slots.shiftFrontward (Circle.next p m) 1 back
            tail := Circle.prev d.tail m }) := by
  rw [delete, deleteOnWords]
  cases d.slot p with
  | none => rfl
  | some x =>
      simp only [Calculation.exact, Calculation.exact_bind, Circle.exact_stepsOnWords]
      refine (Calculation.exact_ite ..).trans (ite_congr rfl (fun _ => ?_) fun _ => ?_)
      · simp only [Calculation.exact, Calculation.exact_bind]
        rfl
      · simp only [Calculation.exact, Calculation.exact_bind]
        rfl

/-- The error of an index that does not name an element. -/
def outOfBounds (d : Deque α) (index : Nat) : Error :=
  .indexOutOfBounds index d.length

/-- The element at `index`. -/
def getOnWords (index : Nat) (d : Deque α) : Calculation (Except Error α) :=
  d.lengthOnWords.bind fun length =>
  if index < length then
    (d.get?OnWords index).bind fun found =>
    .result <|
      match found with
      | some x => .ok x
      | none => .error .concurrentModification
  else
    .result (.error (.indexOutOfBounds index length))

@[inherit_doc getOnWords]
def get (index : Nat) (d : Deque α) : Except Error α :=
  (d.getOnWords index).exact

theorem get_eq (index : Nat) (d : Deque α) :
    d.get index =
      if index < d.length then
        match d.get? index with
        | some x => .ok x
        | none => .error .concurrentModification
      else
        .error (d.outOfBounds index) := by
  rw [get, getOnWords, Calculation.exact_bind]
  exact (Calculation.exact_ite ..).trans
    (ite_congr rfl (fun _ => Calculation.exact_bind ..) fun _ => rfl)

/-- The element at `index`; an index that names none is a fault. -/
def getOrFault (index : Nat) (d : Deque α) : Except Fault α :=
  match d.get? index with
  | some x => .ok x
  | none => .error (.refused (d.outOfBounds index))

/-- Put `x` in place of the element at `index`, and return that element. -/
def setOnWords (index : Nat) (x : α) (d : Deque α) : Calculation (Except Error α × Deque α) :=
  d.lengthOnWords.bind fun length =>
  if index < length then
    (d.positionOnWords index).bind fun p =>
    .result <|
      match d.replaceSlot p x with
      | (some y, d) => (.ok y, d)
      | (none, d) => (.error .concurrentModification, d)
  else
    .result (.error (.indexOutOfBounds index length), d)

@[inherit_doc setOnWords]
def set (index : Nat) (x : α) (d : Deque α) : Except Error α × Deque α :=
  (d.setOnWords index x).exact

theorem set_eq (index : Nat) (x : α) (d : Deque α) :
    d.set index x =
      if index < d.length then
        match d.replaceSlot (d.position index) x with
        | (some y, d) => (.ok y, d)
        | (none, d) => (.error .concurrentModification, d)
      else
        (.error (d.outOfBounds index), d) := by
  rw [set, setOnWords, Calculation.exact_bind]
  exact (Calculation.exact_ite ..).trans
    (ite_congr rfl (fun _ => Calculation.exact_bind ..) fun _ => rfl)

/-- Put `x` in place of the element at `index`, if the index names one. -/
def replace? (index : Nat) (x : α) (d : Deque α) : Option α × Deque α :=
  if index < d.length then d.replaceSlot (d.position index) x else (none, d)

/-- Put `x` in place of the element at `index`; an index that names none is a fault. -/
def replaceOrFault (index : Nat) (x : α) (d : Deque α) : Except Fault α × Deque α :=
  match d.replace? index x with
  | (some y, d) => (.ok y, d)
  | (none, d) => (.error (.refused (d.outOfBounds index)), d)

/-- Insert `x` in front of the element at `index`, or at the back if `index` is the length. -/
def insertOnWords (a : Allocator) (index : Nat) (x : α) (d : Deque α) :
    Calculation (Except Error Unit × Deque α) :=
  d.lengthOnWords.bind fun length =>
  if length < index then
    .result (.error (.indexOutOfBounds index length), d)
  else
    (d.positionOnWords index).bind fun p =>
    (d.insertAtOnWords a p x).bind fun outcome =>
    .result <|
      match outcome with
      | (.ok _, d) => (.ok (), d)
      | (.error e, d) => (.error e, d)

@[inherit_doc insertOnWords]
def insert (a : Allocator) (index : Nat) (x : α) (d : Deque α) : Except Error Unit × Deque α :=
  (d.insertOnWords a index x).exact

theorem insert_eq (a : Allocator) (index : Nat) (x : α) (d : Deque α) :
    d.insert a index x =
      if d.length < index then
        (.error (d.outOfBounds index), d)
      else
        match d.insertAt a (d.position index) x with
        | (.ok _, d) => (.ok (), d)
        | (.error e, d) => (.error e, d) := by
  rw [insert, insertOnWords, Calculation.exact_bind]
  refine (Calculation.exact_ite ..).trans (ite_congr rfl (fun _ => rfl) fun _ => ?_)
  simp only [Calculation.exact, Calculation.exact_bind]
  rfl

/-- Remove the element at `index`. -/
def removeAtOnWords (index : Nat) (d : Deque α) : Calculation (Except Error α × Deque α) :=
  d.lengthOnWords.bind fun length =>
  if index < length then
    (d.positionOnWords index).bind fun p =>
    (d.deleteOnWords p).bind fun outcome =>
    .result <|
      match outcome with
      | (some (x, _), d) => (.ok x, d)
      | (none, d) => (.error .concurrentModification, d)
  else
    .result (.error (.indexOutOfBounds index length), d)

@[inherit_doc removeAtOnWords]
def removeAt (index : Nat) (d : Deque α) : Except Error α × Deque α :=
  (d.removeAtOnWords index).exact

theorem removeAt_eq (index : Nat) (d : Deque α) :
    d.removeAt index =
      if index < d.length then
        match d.delete (d.position index) with
        | (some (x, _), d) => (.ok x, d)
        | (none, d) => (.error .concurrentModification, d)
      else
        (.error (d.outOfBounds index), d) := by
  rw [removeAt, removeAtOnWords, Calculation.exact_bind]
  refine (Calculation.exact_ite ..).trans (ite_congr rfl (fun _ => ?_) fun _ => rfl)
  simp only [Calculation.exact, Calculation.exact_bind]
  rfl

/-- Remove the element at the index that `choose` picks for the length, if there is an element. -/
def removeChosen (choose : Nat → Nat) (d : Deque α) : Option α × Deque α :=
  if d.length = 0 then
    (none, d)
  else
    match d.removeAt (choose d.length) with
    | (.ok x, d) => (some x, d)
    | (.error _, d) => (none, d)

end Deque

end RingDeque
