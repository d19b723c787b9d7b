import RingDeque.Deque.Removal

/-!
# Visiting every element

`forEach` shows each element to a callback, `replaceAll` puts the callback's answers in their place.
An answer is written before the next call, so a fault leaves the elements visited before it replaced
and the others as they were.
-/

namespace RingDeque.Deque

variable {α : Type u} {σ : Type v}

/-- Call `action` on each element, front to back. -/
def forEach (action : Callback σ α Unit) (d : Deque α) (s : σ) : Except Fault Unit × σ :=
  match traverse action d.toList s with
  | (⟨_, none⟩, s) => (.ok (), s)
  | (⟨_, some fault⟩, s) => (.error fault, s)

/-- Replace each element by the answer of `operator`, front to back. -/
def replaceAll (operator : Callback σ α α) (d : Deque α) (s : σ) :
    (Except Fault Unit × Deque α) × σ :=
  match traverse operator d.toList s with
  | (answers, s) =>
    let d : Deque α := { d with slots := d.slots.fill d.head answers.values }
    match answers.fault with
    | none => ((.ok (), d), s)
    | some fault => ((.error fault, d), s)

end RingDeque.Deque
