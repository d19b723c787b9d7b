import RingDeque.Error

/-!
# Faults and callbacks

An operation that calls back into its user's code may be cut short by that code. Such a fault is no
answer: it ends the operation, and all that encloses it, at the call where it arose. An operation
that is not allowed to refuse turns the error it meets into a fault as well.

A callback has a state of its own, which it may read and change at every call. `traverse` calls one
on each element of a list in turn. What it obtains is a `Trace`: the answers up to the first fault,
and that fault if there was one. A source of elements, which may also fail while it is read, is a
trace too.
-/

namespace RingDeque

/-- Why an operation ended without an answer. -/
inductive Fault where
  /-- A callback gave up. -/
  | callback
  /-- An operation that must not fail met an error. -/
  | refused (error : Error)
  /-- A number was to be taken from a smaller one. -/
  | belowZero
  /-- A thread waits for a lock that is not released before the thread is done. -/
  | deadlock
  deriving DecidableEq, Repr

/-- The sentence that tells a user what happened. -/
def Fault.message : Fault → String
  | callback => "callback failed"
  | refused error => error.message
  | belowZero => "attempt to subtract with overflow"
  | deadlock => "lock is never released"

/-- A function with a state `σ` of its own, which may end in a fault. -/
abbrev Callback (σ : Type u) (α : Type v) (β : Type w) := α → σ → Except Fault β × σ

/-- A finite sequence of values, and the fault that cut it short, if one did. -/
structure Trace (α : Type u) where
  values : List α
  fault : Option Fault := none
  deriving Repr

namespace Trace

variable {α : Type u}

/-- A sequence that nothing cuts short. -/
def ofList (xs : List α) : Trace α :=
  ⟨xs, none⟩

/-- The sequence `xs` when reading the element at position `k` fails, and so does finding the end if
that is the read with number `k`. -/
def failingAt (xs : List α) (k : Nat) : Trace α :=
  if k ≤ xs.length then ⟨xs.take k, some .callback⟩ else ⟨xs, none⟩

/-- All values, unless a fault cut them short. -/
def complete (trace : Trace α) : Except Fault (List α) :=
  match trace.fault with
  | none => .ok trace.values
  | some fault => .error fault

@[simp] theorem complete_ofList (xs : List α) : (ofList xs).complete = .ok xs := rfl

end Trace

variable {σ : Type u} {α : Type v} {β : Type w}

/-- Call `f` on each element in turn until the first fault. The calls before these gave `answers`,
the latest first. -/
def traverseAfter (f : Callback σ α β) (answers : List β) : List α → σ → Trace β × σ
  | [], s => (⟨answers.reverse, none⟩, s)
  | x :: xs, s =>
    match f x s with
    | (.error fault, s) => (⟨answers.reverse, some fault⟩, s)
    | (.ok y, s) => traverseAfter f (y :: answers) xs s

/-- Call `f` on each element in turn until the first fault. -/
def traverse (f : Callback σ α β) (xs : List α) (s : σ) : Trace β × σ :=
  traverseAfter f [] xs s

@[simp] theorem traverse_nil (f : Callback σ α β) (s : σ) : traverse f [] s = (⟨[], none⟩, s) := rfl

theorem traverseAfter_eq (f : Callback σ α β) (answers : List β) (xs : List α) (s : σ) :
    traverseAfter f answers xs s =
      let (rest, s) := traverse f xs s
      (⟨answers.reverse ++ rest.values, rest.fault⟩, s) := by
  induction xs generalizing answers s with
  | nil => simp [traverse, traverseAfter]
  | cons x xs ih =>
    simp only [traverse, traverseAfter]
    split
    · simp
    · rw [ih (_ :: answers), ih [_]]
      simp

/-- The first call decides how the rest goes on. -/
theorem traverse_cons (f : Callback σ α β) (x : α) (xs : List α) (s : σ) :
    traverse f (x :: xs) s =
      match f x s with
      | (.error fault, s) => (⟨[], some fault⟩, s)
      | (.ok y, s) =>
        let (rest, s) := traverse f xs s
        (⟨y :: rest.values, rest.fault⟩, s) := by
  rw [traverse, traverseAfter]
  split
  · rfl
  · rw [traverseAfter_eq]
    rfl

/-- A function without state or faults as a callback. -/
def Callback.pure (f : α → β) : Callback σ α β :=
  fun x s => (.ok (f x), s)

@[simp] theorem traverse_pure (f : α → β) (xs : List α) (s : σ) :
    traverse (Callback.pure f) xs s = (⟨xs.map f, none⟩, s) := by
  induction xs with
  | nil => rfl
  | cons x xs ih => simp [traverse_cons, ih, Callback.pure]

end RingDeque
