import RingDeque.Deque.Basic
import RingDeque.Fault
import RingDeque.Traversal.Basic

/-!
# Splitters

A splitter covers a run of elements and can give away the first half of what is left, again and
again, until every element has an owner. A fresh splitter has no run yet: it takes the elements that
the deque has at its first use. Like a cursor it is told the deque at every step.
-/

namespace RingDeque

/-- A run of elements that can be divided. -/
structure Splitter where
  /-- The slot behind the run, once the splitter has one. -/
  fence : Option Nat
  /-- The slot of the first element that is left. -/
  position : Nat
  deriving DecidableEq, Repr

namespace Splitter

variable {α : Type u} {σ : Type v}

/-- A splitter without a run. -/
def unbound : Splitter := ⟨none, 0⟩

/-- The splitter with a run, and the end of that run. -/
def bind (sp : Splitter) (d : Deque α) : Nat × Splitter :=
  match sp.fence with
  | some fence => (fence, sp)
  | none => (d.tail, ⟨some d.tail, d.head⟩)

/-- Give away the first half of the run, unless it has fewer than two elements. -/
def trySplitOnWords (sp : Splitter) (d : Deque α) : Calculation (Option Splitter × Splitter) :=
  let (fence, sp) := sp.bind d
  (Circle.stepsOnWords sp.position fence d.slotCount).bind fun length =>
  let half := length / 2
  if half = 0 then
    .result (none, sp)
  else
    (Circle.forwardOnWords sp.position half d.slotCount).bind fun middle =>
    .result (some ⟨some middle, sp.position⟩, { sp with position := middle })

@[inherit_doc trySplitOnWords]
def trySplit (sp : Splitter) (d : Deque α) : Option Splitter × Splitter :=
  (sp.trySplitOnWords d).exact

theorem trySplit_eq (sp : Splitter) (d : Deque α) :
    sp.trySplit d =
      let (fence, sp) := sp.bind d
      let half := Circle.steps sp.position fence d.slotCount / 2
      if half = 0 then
        (none, sp)
      else
        let middle := Circle.forward sp.position half d.slotCount
        (some ⟨some middle, sp.position⟩, { sp with position := middle }) := by
  rw [trySplit, trySplitOnWords, Calculation.exact_bind]
  refine (Calculation.exact_ite ..).trans (ite_congr rfl (fun _ => rfl) fun _ => ?_)
  exact Calculation.exact_bind ..

/-- Show the next element to `action`; whether there was one. -/
def tryAdvanceOnWords (action : Callback σ α Unit) (sp : Splitter) (d : Deque α) (s : σ) :
    Calculation ((Except Fault (Except Error Bool) × Splitter) × σ) :=
  let (fence, sp) := sp.bind d
  if sp.position = fence then
    .result ((.ok (.ok false), sp), s)
  else
    match d.slot sp.position with
    | none => .result ((.ok (.error .concurrentModification), sp), s)
    | some x =>
      (Circle.nextOnWords sp.position d.slotCount).bind fun position =>
      let sp := { sp with position := position }
      .result <|
        match action x s with
        | (.error fault, s) => ((.error fault, sp), s)
        | (.ok (), s) => ((.ok (.ok true), sp), s)

@[inherit_doc tryAdvanceOnWords]
def tryAdvance (action : Callback σ α Unit) (sp : Splitter) (d : Deque α) (s : σ) :
    (Except Fault (Except Error Bool) × Splitter) × σ :=
  (sp.tryAdvanceOnWords action d s).exact

theorem tryAdvance_eq (action : Callback σ α Unit) (sp : Splitter) (d : Deque α) (s : σ) :
    sp.tryAdvance action d s =
      let (fence, sp) := sp.bind d
      if sp.position = fence then
        ((.ok (.ok false), sp), s)
      else
        match d.slot sp.position with
        | none => ((.ok (.error .concurrentModification), sp), s)
        | some x =>
          let sp := { sp with position := Circle.next sp.position d.slotCount }
          match action x s with
          | (.error fault, s) => ((.error fault, sp), s)
          | (.ok (), s) => ((.ok (.ok true), sp), s) := by
  rw [tryAdvance, tryAdvanceOnWords]
  rcases sp.bind d with ⟨fence, sp⟩
  refine (Calculation.exact_ite ..).trans (ite_congr rfl (fun _ => rfl) fun _ => ?_)
  cases d.slot sp.position with
  | none => rfl
  | some x => exact Calculation.exact_bind ..

/-- Show the elements of `count` slots from `p` on to `action`. The position is moved on after each
call. -/
def visitOnWords (action : Callback σ α Unit) (d : Deque α) :
    Nat → Nat → σ → Calculation (Except Fault Unit × σ)
  | 0, _, s => .result (.ok (), s)
  | count + 1, p, s =>
    match d.slot p with
    | none => (Circle.nextOnWords p d.slotCount).bind fun next => visitOnWords action d count next s
    | some x =>
      match action x s with
      | (.error fault, s) => .result (.error fault, s)
      | (.ok (), s) => (Circle.nextOnWords p d.slotCount).bind fun next =>
        visitOnWords action d count next s

@[inherit_doc visitOnWords]
def visit (action : Callback σ α Unit) (d : Deque α) (count p : Nat) (s : σ) :
    Except Fault Unit × σ :=
  (visitOnWords action d count p s).exact

theorem visit_succ (action : Callback σ α Unit) (d : Deque α) (count p : Nat) (s : σ) :
    visit action d (count + 1) p s =
      match d.slot p with
      | none => visit action d count (Circle.next p d.slotCount) s
      | some x =>
        match action x s with
        | (.error fault, s) => (.error fault, s)
        | (.ok (), s) => visit action d count (Circle.next p d.slotCount) s := by
  rw [visit, visitOnWords]
  cases d.slot p with
  | none => exact Calculation.exact_bind ..
  | some x =>
      dsimp only
      rcases action x s with ⟨fault | ⟨⟩, s⟩
      · rfl
      · exact Calculation.exact_bind ..

/-- Show all elements that are left to `action`. If the slot at either end of the run is empty, the
run is not what it was, and `action` sees none of it. The end is looked at only if the beginning is
occupied. The walk ends where it meets the fence: the number of steps is not computed. -/
def forEachRemainingOnWords (action : Callback σ α Unit) (sp : Splitter) (d : Deque α) (s : σ) :
    Calculation ((Except Fault (Except Error Unit) × Splitter) × σ) :=
  let (fence, sp) := sp.bind d
  if sp.position = fence then
    .result ((.ok (.ok ()), sp), s)
  else
    let done := { sp with position := fence }
    if (d.slot sp.position).isNone then
      .result ((.ok (.error .concurrentModification), done), s)
    else
      (Circle.prevOnWords fence d.slotCount).bind fun last =>
      if (d.slot last).isNone then
        .result ((.ok (.error .concurrentModification), done), s)
      else
        (visitOnWords action d (Circle.steps sp.position fence d.slotCount) sp.position s).bind
        fun outcome =>
        .result <|
          match outcome with
          | (.ok (), s) => ((.ok (.ok ()), done), s)
          | (.error fault, s) => ((.error fault, done), s)

@[inherit_doc forEachRemainingOnWords]
def forEachRemaining (action : Callback σ α Unit) (sp : Splitter) (d : Deque α) (s : σ) :
    (Except Fault (Except Error Unit) × Splitter) × σ :=
  (sp.forEachRemainingOnWords action d s).exact

theorem forEachRemaining_eq (action : Callback σ α Unit) (sp : Splitter) (d : Deque α) (s : σ) :
    sp.forEachRemaining action d s =
      let (fence, sp) := sp.bind d
      if sp.position = fence then
        ((.ok (.ok ()), sp), s)
      else
        let done := { sp with position := fence }
        if (d.slot sp.position).isNone then
          ((.ok (.error .concurrentModification), done), s)
        else if (d.slot (Circle.prev fence d.slotCount)).isNone then
          ((.ok (.error .concurrentModification), done), s)
        else
          match visit action d (Circle.steps sp.position fence d.slotCount) sp.position s with
          | (.ok (), s) => ((.ok (.ok ()), done), s)
          | (.error fault, s) => ((.error fault, done), s) := by
  refine (Calculation.exact_ite ..).trans (ite_congr rfl (fun _ => rfl) fun _ => ?_)
  refine (Calculation.exact_ite ..).trans (ite_congr rfl (fun _ => rfl) fun _ => ?_)
  refine (Calculation.exact_bind ..).trans ?_
  refine (Calculation.exact_ite ..).trans (ite_congr rfl (fun _ => rfl) fun _ => ?_)
  exact Calculation.exact_bind ..

/-- The number of elements left. This gives a fresh splitter its run. -/
def estimateSizeOnWords (sp : Splitter) (d : Deque α) : Calculation (Nat × Splitter) :=
  let (fence, sp) := sp.bind d
  (Circle.stepsOnWords sp.position fence d.slotCount).bind fun length => .result (length, sp)

@[inherit_doc estimateSizeOnWords]
def estimateSize (sp : Splitter) (d : Deque α) : Nat × Splitter :=
  (sp.estimateSizeOnWords d).exact

theorem estimateSize_eq (sp : Splitter) (d : Deque α) :
    sp.estimateSize d =
      let (fence, sp) := sp.bind d
      (Circle.steps sp.position fence d.slotCount, sp) := by
  exact Calculation.exact_bind ..

/-- The number of elements left. A fresh splitter stays without a run. -/
def sizeOnWords (sp : Splitter) (d : Deque α) : Calculation Nat :=
  match sp.fence with
  | some fence => Circle.stepsOnWords sp.position fence d.slotCount
  | none => d.lengthOnWords

@[inherit_doc sizeOnWords]
def size (sp : Splitter) (d : Deque α) : Nat :=
  (sp.sizeOnWords d).exact

theorem size_eq (sp : Splitter) (d : Deque α) :
    sp.size d =
      match sp.fence with
      | some fence => Circle.steps sp.position fence d.slotCount
      | none => d.length := by
  rw [size, sizeOnWords]
  cases sp.fence with
  | none => rfl
  | some fence => rfl

/-- Return the next element. -/
def nextOnWords (d : Deque α) (sp : Splitter) : Calculation (Option α × Splitter) :=
  let (fence, sp) := sp.bind d
  if sp.position = fence then
    .result (none, sp)
  else
    (Circle.nextOnWords sp.position d.slotCount).bind fun position =>
    .result (d.slot sp.position, { sp with position := position })

@[inherit_doc nextOnWords]
def next (sp : Splitter) (d : Deque α) : Option α × Splitter :=
  (nextOnWords d sp).exact

theorem next_eq (sp : Splitter) (d : Deque α) :
    sp.next d =
      let (fence, sp) := sp.bind d
      if sp.position = fence then
        (none, sp)
      else
        (d.slot sp.position, { sp with position := Circle.next sp.position d.slotCount }) := by
  refine (Calculation.exact_ite ..).trans (ite_congr rfl (fun _ => rfl) fun _ => ?_)
  exact Calculation.exact_bind ..

/-- Drop `n` elements and return the one behind them. -/
def nth (n : Nat) (sp : Splitter) (d : Deque α) : Option α × Splitter :=
  Traversal.skip (fun sp => next sp d) n sp

/-- All elements that are left. One step more than there are elements shows that the end is
reached. -/
def drain (sp : Splitter) (d : Deque α) : List α × Splitter :=
  Traversal.collect (fun sp => next sp d) (sp.size d + 1) sp

/-- Split again and again until nothing splits, and list the elements of each part in order. Every
split halves the run, so as many rounds as there are elements are enough. -/
def parts (d : Deque α) : Nat → Splitter → List (List α)
  | 0, sp => [(sp.drain d).1]
  | rounds + 1, sp =>
    match sp.trySplit d with
    | (none, sp) => [(sp.drain d).1]
    | (some first, second) => parts d rounds first ++ parts d rounds second

/-- The elements of the deque, divided until nothing splits. -/
def partsOf (d : Deque α) : List (List α) :=
  parts d d.length unbound

end Splitter

/-- A splitter of the elements. -/
def Deque.splitter {α : Type u} (_ : Deque α) : Splitter :=
  .unbound

end RingDeque
