import RingDeque.Deque.Positional

/-!
# Adding many elements

`insertAll` and `addAll` read their source to the end before they touch the deque, so a source that
fails leaves no trace. They then open one gap for all new elements, on the side where fewer elements
have to move, or lay everything out anew when the buffer is too small: each element moves at most
once.

`extend` adds one by one what its source delivers. It reserves room beforehand for the number of
elements that the source claims to have, which may be wrong in either direction.
-/

namespace RingDeque.Deque

variable {α : Type u}

/-- Insert `xs` in front of the element at `index`, which is at most the length; whether that
changed anything. The slot of the new elements is looked up again when the ends have moved. -/
def insertRangeOnWords (a : Allocator) (index : Nat) (xs : List α) (d : Deque α) :
    Calculation (Except Error Bool × Deque α) :=
  let m := d.slotCount
  let count := xs.length
  if count = 0 then
    .result (.ok false, d)
  else
    d.lengthOnWords.bind fun length =>
    .add length count fun total =>
    if m ≤ total then
      .add total 1 fun occupied =>
      .sub occupied m fun needed =>
      (d.grownSlotCountOnWords a needed).bind fun
      | .error e => .result (.error e, d)
      | .ok slotCount =>
        (d.relayoutOnWords a slotCount index xs).bind fun outcome =>
        .result <|
          match outcome with
          | (.ok (), d) => (.ok true, d)
          | (.error e, d) => (.error e, d)
    else
      .sub length index fun behind =>
      if index < behind then
        (d.slots.shiftFrontwardOnWords d.head count index).bind fun slots =>
        (Circle.backwardOnWords d.head count m).bind fun head =>
        (Circle.forwardOnWords head index m).bind fun start =>
        (Slots.fillOnWords xs slots start).bind fun slots =>
        .result (.ok true, { d with slots := slots, head := head })
      else
        (d.positionOnWords index).bind fun start =>
        (d.slots.shiftBackwardOnWords start count behind).bind fun slots =>
        (Circle.forwardOnWords d.tail count m).bind fun tail =>
        (d.positionOnWords index).bind fun start =>
        (Slots.fillOnWords xs slots start).bind fun slots =>
        .result (.ok true, { d with slots := slots, tail := tail })

@[inherit_doc insertRangeOnWords]
def insertRange (a : Allocator) (index : Nat) (xs : List α) (d : Deque α) :
    Except Error Bool × Deque α :=
  (d.insertRangeOnWords a index xs).exact

theorem insertRange_eq (a : Allocator) (index : Nat) (xs : List α) (d : Deque α) :
    d.insertRange a index xs =
      let m := d.slotCount
      let count := xs.length
      if count = 0 then
        (.ok false, d)
      else if m ≤ d.length + count then
        match d.grownSlotCount a (d.length + count + 1 - m) with
        | .error e => (.error e, d)
        | .ok slotCount =>
          match d.relayout a slotCount index xs with
          | (.ok (), d) => (.ok true, d)
          | (.error e, d) => (.error e, d)
      else if index < d.length - index then
        let head := Circle.backward d.head count m
        let slots := d.slots.shiftFrontward d.head count index
        (.ok true, { d with slots := slots.fill (Circle.forward head index m) xs, head := head })
      else
        let slots := d.slots.shiftBackward (d.position index) count (d.length - index)
        (.ok true, { d with
          slots := slots.fill (d.position index) xs
          tail := Circle.forward d.tail count m }) := by
  rw [insertRange, insertRangeOnWords]
  refine (Calculation.exact_ite ..).trans (ite_congr rfl (fun _ => rfl) fun _ => ?_)
  simp only [Calculation.exact, Calculation.exact_bind, exact_lengthOnWords]
  refine (Calculation.exact_ite ..).trans (ite_congr rfl (fun _ => ?_) fun _ => ?_)
  · simp only [Calculation.exact, Calculation.exact_bind, exact_grownSlotCountOnWords]
    cases d.grownSlotCount a (d.length + xs.length + 1 - d.slotCount) with
    | error e => rfl
    | ok count => exact Calculation.exact_bind ..
  · refine (Calculation.exact_ite ..).trans (ite_congr rfl (fun _ => ?_) fun _ => ?_)
    · simp only [Calculation.exact, Calculation.exact_bind]
      rfl
    · simp only [Calculation.exact, Calculation.exact_bind]
      rfl

/-- Insert all that `source` delivers in front of the element at `index`; whether that changed
anything. An index beyond the length is refused before the source is read. -/
def insertAllOnWords (a : Allocator) (index : Nat) (source : Trace α) (d : Deque α) :
    Calculation (Except Fault (Except Error Bool) × Deque α) :=
  d.lengthOnWords.bind fun length =>
  if length < index then
    .result (.ok (.error (.indexOutOfBounds index length)), d)
  else
    match source.complete with
    | .error fault => .result (.error fault, d)
    | .ok xs =>
      (d.insertRangeOnWords a index xs).bind fun (answer, d) => .result (.ok answer, d)

@[inherit_doc insertAllOnWords]
def insertAll (a : Allocator) (index : Nat) (source : Trace α) (d : Deque α) :
    Except Fault (Except Error Bool) × Deque α :=
  (d.insertAllOnWords a index source).exact

theorem insertAll_eq (a : Allocator) (index : Nat) (source : Trace α) (d : Deque α) :
    d.insertAll a index source =
      if d.length < index then
        (.ok (.error (d.outOfBounds index)), d)
      else
        match source.complete with
        | .error fault => (.error fault, d)
        | .ok xs =>
          let (answer, d) := d.insertRange a index xs
          (.ok answer, d) := by
  rw [insertAll, insertAllOnWords, Calculation.exact_bind]
  refine (Calculation.exact_ite ..).trans (ite_congr rfl (fun _ => rfl) fun _ => ?_)
  cases source.complete with
  | error fault => rfl
  | ok xs => exact Calculation.exact_bind ..

/-- Add all that `source` delivers at the back; whether that changed anything. -/
def tryAddAllOnWords (a : Allocator) (source : Trace α) (d : Deque α) :
    Calculation (Except Fault (Except Error Bool) × Deque α) :=
  match source.complete with
  | .error fault => .result (.error fault, d)
  | .ok xs =>
    d.lengthOnWords.bind fun length =>
    (d.insertRangeOnWords a length xs).bind fun (answer, d) => .result (.ok answer, d)

@[inherit_doc tryAddAllOnWords]
def tryAddAll (a : Allocator) (source : Trace α) (d : Deque α) :
    Except Fault (Except Error Bool) × Deque α :=
  (d.tryAddAllOnWords a source).exact

theorem tryAddAll_eq (a : Allocator) (source : Trace α) (d : Deque α) :
    d.tryAddAll a source =
      match source.complete with
      | .error fault => (.error fault, d)
      | .ok xs =>
        let (answer, d) := d.insertRange a d.length xs
        (.ok answer, d) := by
  rw [tryAddAll, tryAddAllOnWords]
  cases source.complete with
  | error fault => rfl
  | ok xs => exact (Calculation.exact_bind ..).trans (Calculation.exact_bind ..)

/-- Add all that `source` delivers at the back; no room is a fault. -/
def addAll (a : Allocator) (source : Trace α) (d : Deque α) : Except Fault Bool × Deque α :=
  match d.tryAddAll a source with
  | (.error fault, d) => (.error fault, d)
  | (.ok answer, d) => orFault (answer, d)

/-- Add `xs` at the back one by one. The answer names the elements that are left when there is no
more room. -/
def pushAllOnWords (a : Allocator) :
    List α → Deque α → Calculation (Except Error Unit × List α × Deque α)
  | [], d => .result (.ok (), [], d)
  | x :: xs, d =>
    (d.tryPushBackOnWords a x).bind fun
    | (.ok (), d) => pushAllOnWords a xs d
    | (.error e, d) => .result (.error e, xs, d)

@[inherit_doc pushAllOnWords]
def pushAll (a : Allocator) (xs : List α) (d : Deque α) : Except Error Unit × List α × Deque α :=
  (d.pushAllOnWords a xs).exact

theorem pushAll_cons (a : Allocator) (x : α) (xs : List α) (d : Deque α) :
    d.pushAll a (x :: xs) =
      match d.tryPushBack a x with
      | (.ok (), d) => d.pushAll a xs
      | (.error e, d) => (.error e, xs, d) := by
  rw [pushAll, pushAllOnWords, Calculation.exact_bind, exact_tryPushBackOnWords]
  rcases d.tryPushBack a x with ⟨e | ⟨⟩, pushed⟩ <;> rfl

/-- Add what `source` delivers at the back, one by one, after making room for `claimed` more
elements. The sum with what the source claims stops at the largest word. The answer comes with the
unread rest of the source and the deque afterwards. -/
def extendOnWords (a : Allocator) (claimed : Nat) (source : Trace α) (d : Deque α) :
    Calculation (Except Fault Unit × Trace α × Deque α) :=
  d.lengthOnWords.bind fun length =>
  (d.ensureCapacityOnWords a (min (length + claimed) wordMax)).bind fun
  | (.error e, d) => .result (.error (.refused e), source, d)
  | (.ok (), d) =>
    (d.pushAllOnWords a source.values).bind fun outcome =>
    .result <|
      match outcome with
      | (.error e, rest, d) => (.error (.refused e), { source with values := rest }, d)
      | (.ok (), rest, d) =>
        match source.fault with
        | some fault => (.error fault, ⟨rest, none⟩, d)
        | none => (.ok (), ⟨rest, none⟩, d)

@[inherit_doc extendOnWords]
def extend (a : Allocator) (claimed : Nat) (source : Trace α) (d : Deque α) :
    Except Fault Unit × Trace α × Deque α :=
  (d.extendOnWords a claimed source).exact

theorem extend_eq (a : Allocator) (claimed : Nat) (source : Trace α) (d : Deque α) :
    d.extend a claimed source =
      match d.ensureCapacity a (min (d.length + claimed) wordMax) with
      | (.error e, d) => (.error (.refused e), source, d)
      | (.ok (), d) =>
        match d.pushAll a source.values with
        | (.error e, rest, d) => (.error (.refused e), { source with values := rest }, d)
        | (.ok (), rest, d) =>
          match source.fault with
          | some fault => (.error fault, ⟨rest, none⟩, d)
          | none => (.ok (), ⟨rest, none⟩, d) := by
  rw [extend, extendOnWords, Calculation.exact_bind, Calculation.exact_bind, exact_lengthOnWords,
    exact_ensureCapacityOnWords]
  rcases d.ensureCapacity a (min (d.length + claimed) wordMax) with ⟨e | ⟨⟩, ensured⟩
  · rfl
  · exact Calculation.exact_bind ..

end RingDeque.Deque
