import RingDeque.Deque.Visit

/-!
# Sorting

The sort is stable and keeps the layout: the sorted elements take the slots that the elements had.
Elements that do not wrap are sorted where they stand. Wrapped ones are first brought together: into
the gap behind `tail` if it has room for all of them, otherwise into a list outside the buffer.
Afterwards they go back the way they came.

Which sort of lists is used makes no difference to any of that; it is a parameter up to `sortBy`.
That one sorts a list by halves, which are then merged. The comparison is a callback and may fail. A
failing sort stops where it is and puts the elements that it has not come to behind those that it
has. So what it leaves is still the same elements in some order, and the order of the start if the
very first comparison fails.
-/

namespace RingDeque

/-- A comparison with a state of its own, which may end in a fault. -/
abbrev Comparison (σ : Type u) (α : Type v) := α → α → σ → Except Fault Ordering × σ

/-- A way to sort lists. It returns the fault that stopped the comparison, if one did, and the
elements in the order that they have then. -/
abbrev Sorter (σ : Type u) : Type (max u (v + 1)) :=
  ∀ {β : Type v}, Comparison σ β → List β → σ → (Option Fault × List β) × σ

variable {σ : Type u} {α : Type v}

/-- Move the elements that are less than `x` from the beginning of a list to `merged`, the latest
first. Returns both lists. -/
def moveLess (compare : Comparison σ α) (x : α) (merged : List α) :
    List α → σ → (Option Fault × List α × List α) × σ
  | [], s => ((none, merged, []), s)
  | y :: ys, s =>
    match compare x y s with
    | (.error fault, s) => ((some fault, merged, y :: ys), s)
    | (.ok .gt, s) => moveLess compare x (y :: merged) ys s
    | (.ok _, s) => ((none, merged, y :: ys), s)

/-- Merge two sorted lists behind `merged`, which has the latest first. Of elements that compare as
equal, those of the first list come first. -/
def merge (compare : Comparison σ α) (merged : List α) :
    List α → List α → σ → (Option Fault × List α) × σ
  | [], ys, s => ((none, merged.reverse ++ ys), s)
  | x :: xs, ys, s =>
    match moveLess compare x merged ys s with
    | ((some fault, merged, ys), s) => ((some fault, merged.reverse ++ x :: xs ++ ys), s)
    | ((none, merged, ys), s) => merge compare (x :: merged) xs ys s

/-- Sort a list that is cut into halves so many times. -/
def sortHalves (compare : Comparison σ α) : Nat → List α → σ → (Option Fault × List α) × σ
  | 0, xs, s => ((none, xs), s)
  | cuts + 1, xs, s =>
    if xs.length < 2 then
      ((none, xs), s)
    else
      let middle := xs.length / 2
      match sortHalves compare cuts (xs.take middle) s with
      | ((some fault, left), s) => ((some fault, left ++ xs.drop middle), s)
      | ((none, left), s) =>
        match sortHalves compare cuts (xs.drop middle) s with
        | ((some fault, right), s) => ((some fault, left ++ right), s)
        | ((none, right), s) => merge compare [] left right s

/-- Sort a list. Elements that compare as equal keep their order. As many cuts as there are elements
leave nothing that could be cut again. -/
def sortList (compare : Comparison σ α) (xs : List α) (s : σ) : (Option Fault × List α) × σ :=
  sortHalves compare xs.length xs s

/-- The comparison of slots by what they hold; empty slots come last. -/
def Comparison.onSlots (compare : Comparison σ α) : Comparison σ (Option α)
  | some x, some y, s => compare x y s
  | some _, none, s => (.ok .lt, s)
  | none, some _, s => (.ok .gt, s)
  | none, none, s => (.ok .eq, s)

/-- The comparison of elements by their keys. It asks for both keys, the left one first. -/
def comparisonOn {κ : Type w} [Ord κ] (key : Callback σ α κ) : Comparison σ α := fun x y s =>
  match key x s with
  | (.error fault, s) => (.error fault, s)
  | (.ok left, s) =>
    match key y s with
    | (.error fault, s) => (.error fault, s)
    | (.ok right, s) => (.ok (compare left right), s)

/-- The comparison by the order of the elements. -/
def Comparison.natural [Ord α] : Comparison σ α :=
  fun x y s => (.ok (compare x y), s)

namespace Deque

/-- Sort the slots from `start` up to `stop`. -/
def sortSlots (sorter : Sorter.{u, v} σ) (compare : Comparison σ α) (start stop : Nat)
    (slots : Slots α) (s : σ) : (Option Fault × Slots α) × σ :=
  let ((fault, sorted), s) := sorter compare.onSlots (slots.extract start stop).toList s
  ((fault, slots.extract 0 start ++ sorted.toArray ++ slots.extract stop slots.size), s)

/-- Bring wrapped elements together in the gap behind `tail`: first those from the beginning of the
buffer, then those that stand in front of them, so that none lands on another. -/
def stageOnWords (d : Deque α) : Calculation (Slots α) :=
  .sub d.slotCount d.head fun leading =>
  .add d.tail leading fun behind =>
  (d.slots.moveRunOnWords 0 behind d.tail).bind fun slots =>
    slots.moveRunOnWords d.head d.tail leading

@[inherit_doc stageOnWords]
def stage (d : Deque α) : Slots α :=
  d.stageOnWords.exact

theorem stage_eq (d : Deque α) :
    d.stage =
      let leading := d.slotCount - d.head
      (d.slots.moveRun 0 (d.tail + leading) d.tail).moveRun d.head d.tail leading := by
  simp only [stage, stageOnWords, Calculation.exact, Calculation.exact_bind,
    Slots.exact_moveRunOnWords]

@[simp] theorem size_stage (d : Deque α) : d.stage.size = d.slotCount := by
  rw [stage_eq]
  exact (Slots.size_moveRun ..).trans (Slots.size_moveRun ..)

/-- Undo `stage`, for the slots of `d`. -/
def unstageOnWords (d : Deque α) (slots : Slots α) : Calculation (Slots α) :=
  .sub d.slotCount d.head fun leading =>
  (slots.moveRunOnWords d.tail d.head leading).bind fun slots =>
  .add d.tail leading fun behind => slots.moveRunOnWords behind 0 d.tail

@[inherit_doc unstageOnWords]
def unstage (d : Deque α) (slots : Slots α) : Slots α :=
  (d.unstageOnWords slots).exact

theorem unstage_eq (d : Deque α) (slots : Slots α) :
    d.unstage slots =
      let leading := d.slotCount - d.head
      (slots.moveRun d.tail d.head leading).moveRun (d.tail + leading) 0 d.tail := by
  simp only [unstage, unstageOnWords, Calculation.exact, Calculation.exact_bind,
    Slots.exact_moveRunOnWords]

@[simp] theorem size_unstage (d : Deque α) (slots : Slots α) :
    (d.unstage slots).size = slots.size := by
  rw [unstage_eq]
  exact (Slots.size_moveRun ..).trans (Slots.size_moveRun ..)

/-- Sort the elements, and also say which fault stopped the comparison, if one did. The end of the
elements that are brought together is computed twice: for the test whether there is room for them,
and to sort them. -/
def sortElementsOnWords (sorter : Sorter.{u, v} σ) (compare : Comparison σ α) (d : Deque α)
    (s : σ) :
    Calculation ((Option Fault × Deque α) × σ) :=
  d.lengthOnWords.bind fun length =>
  if length < 2 then
    .result ((none, d), s)
  else if !d.isWrapped then
    let ((fault, slots), s) := sortSlots sorter compare d.head d.tail d.slots s
    .result ((fault, { d with slots := slots }), s)
  else if d.tail = 0 then
    let ((fault, slots), s) := sortSlots sorter compare d.head d.slotCount d.slots s
    .result ((fault, { d with slots := slots }), s)
  else
    .add d.tail length fun stop =>
    if stop ≤ d.head then
      d.stageOnWords.bind fun staged =>
      d.lengthOnWords.bind fun length =>
      .add d.tail length fun stop =>
      let ((fault, sorted), s) := sortSlots sorter compare d.tail stop staged s
      (d.unstageOnWords sorted).bind fun slots => .result ((fault, { d with slots := slots }), s)
    else
      let ((fault, sorted), s) := sorter compare d.toList s
      (Slots.fillOnWords sorted (d.slots.clear d.head length) d.head).bind fun slots =>
      .result ((fault, { d with slots := slots }), s)

@[inherit_doc sortElementsOnWords]
def sortElements (sorter : Sorter.{u, v} σ) (compare : Comparison σ α) (d : Deque α) (s : σ) :
    (Option Fault × Deque α) × σ :=
  (d.sortElementsOnWords sorter compare s).exact

theorem sortElements_eq (sorter : Sorter.{u, v} σ) (compare : Comparison σ α) (d : Deque α)
    (s : σ) :
    d.sortElements sorter compare s =
      if d.length < 2 then
        ((none, d), s)
      else if !d.isWrapped then
        let ((fault, slots), s) := sortSlots sorter compare d.head d.tail d.slots s
        ((fault, { d with slots := slots }), s)
      else if d.tail = 0 then
        let ((fault, slots), s) := sortSlots sorter compare d.head d.slotCount d.slots s
        ((fault, { d with slots := slots }), s)
      else if d.tail + d.length ≤ d.head then
        let ((fault, slots), s) := sortSlots sorter compare d.tail (d.tail + d.length) d.stage s
        ((fault, { d with slots := d.unstage slots }), s)
      else
        let ((fault, sorted), s) := sorter compare d.toList s
        ((fault, { d with slots := (d.slots.clear d.head d.length).fill d.head sorted }), s) := by
  rw [sortElements, sortElementsOnWords, Calculation.exact_bind, exact_lengthOnWords]
  refine (Calculation.exact_ite ..).trans (ite_congr rfl (fun _ => rfl) fun _ => ?_)
  refine (Calculation.exact_ite ..).trans (ite_congr rfl (fun _ => rfl) fun _ => ?_)
  refine (Calculation.exact_ite ..).trans (ite_congr rfl (fun _ => rfl) fun _ => ?_)
  refine (Calculation.exact_ite ..).trans (ite_congr rfl (fun _ => ?_) fun _ => ?_)
  · simp only [Calculation.exact, Calculation.exact_bind]
    rfl
  · exact Calculation.exact_bind ..

/-- Sort the elements in the way that `sorter` sorts a list. -/
def sortWithOnWords (sorter : Sorter.{u, v} σ) (compare : Comparison σ α) (d : Deque α) (s : σ) :
    Calculation ((Except Fault Unit × Deque α) × σ) :=
  (d.sortElementsOnWords sorter compare s).bind fun outcome =>
  .result <|
    match outcome with
    | ((none, d), s) => ((.ok (), d), s)
    | ((some fault, d), s) => ((.error fault, d), s)

@[inherit_doc sortWithOnWords]
def sortWith (sorter : Sorter.{u, v} σ) (compare : Comparison σ α) (d : Deque α) (s : σ) :
    (Except Fault Unit × Deque α) × σ :=
  (d.sortWithOnWords sorter compare s).exact

theorem sortWith_eq (sorter : Sorter.{u, v} σ) (compare : Comparison σ α) (d : Deque α) (s : σ) :
    d.sortWith sorter compare s =
      match d.sortElements sorter compare s with
      | ((none, d), s) => ((.ok (), d), s)
      | ((some fault, d), s) => ((.error fault, d), s) :=
  Calculation.exact_bind ..

/-- Sort the elements. Elements that compare as equal keep their order. -/
def sortBy (compare : Comparison σ α) (d : Deque α) (s : σ) :
    (Except Fault Unit × Deque α) × σ :=
  d.sortWith sortList compare s

/-- Sort the elements by the keys that `key` gives them. -/
def sortByKey {κ : Type w} [Ord κ] (key : Callback σ α κ) (d : Deque α) (s : σ) :
    (Except Fault Unit × Deque α) × σ :=
  d.sortBy (comparisonOn key) s

/-- Sort the elements by their own order. -/
def sort [Ord α] (d : Deque α) : Except Fault Unit × Deque α :=
  (d.sortBy Comparison.natural ()).1

end Deque

end RingDeque
