/-!
# Double-ended traversals

A traversal yields a finite sequence of values from both ends until the ends meet; then it stays
exhausted. It always knows how many values are left. Skipping `n` values from one end means to yield
and drop them, except that a traversal with random access may jump.

`Request` and `serve` put a whole conversation with a traversal into one value.
-/

namespace RingDeque

/-- Traversals of type `ι`, which yield values of type `β` from both ends. -/
class Traversal (ι : Type u) (β : outParam (Type v)) where
  /-- The value at the front, and what is left then. -/
  next : ι → Option β × ι
  /-- The value at the back, and what is left then. -/
  nextBack : ι → Option β × ι
  /-- How many values are left. -/
  remaining : ι → Nat
  /-- The value behind the first `n`, and what is left then; all those before it are dropped. -/
  nth : Nat → ι → Option β × ι
  /-- The value before the last `n`, and what is left then; all those behind it are dropped. -/
  nthBack : Nat → ι → Option β × ι

namespace Traversal

variable {ι : Type u} {β : Type v}

/-- Drop `n` values that `step` yields and return the one after them. The first failure to yield
ends it. -/
def skip (step : ι → Option β × ι) : Nat → ι → Option β × ι
  | 0, it => step it
  | n + 1, it =>
    match step it with
    | (none, it) => (none, it)
    | (some _, it) => skip step n it

/-- The values in `collected`, the latest first, and at most `n` more that `step` yields; and what
is left then. -/
def collectAfter (step : ι → Option β × ι) (collected : List β) : Nat → ι → List β × ι
  | 0, it => (collected.reverse, it)
  | n + 1, it =>
    match step it with
    | (none, it) => (collected.reverse, it)
    | (some x, it) => collectAfter step (x :: collected) n it

/-- At most `n` values that `step` yields, and what is left then. -/
def collect (step : ι → Option β × ι) (n : Nat) (it : ι) : List β × ι :=
  collectAfter step [] n it

theorem collectAfter_eq (step : ι → Option β × ι) (collected : List β) (n : Nat) (it : ι) :
    collectAfter step collected n it =
      let (xs, it) := collect step n it
      (collected.reverse ++ xs, it) := by
  induction n generalizing collected it with
  | zero => simp [collect, collectAfter]
  | succ n ih =>
    simp only [collect, collectAfter]
    split
    · simp
    · rw [ih (_ :: collected), ih [_]]
      simp

/-- The first step decides how the rest goes on. -/
theorem collect_succ (step : ι → Option β × ι) (n : Nat) (it : ι) :
    collect step (n + 1) it =
      match step it with
      | (none, it) => ([], it)
      | (some x, it) =>
        let (xs, it) := collect step n it
        (x :: xs, it) := by
  rw [collect, collectAfter]
  split
  · rfl
  · rw [collectAfter_eq]
    rfl

variable [Traversal ι β]

/-- All values that are left, from the front. One step more than there are values shows that the end
is reached. -/
def drain (it : ι) : List β × ι :=
  collect next (remaining it + 1) it

/-- All values that are left, from the back. -/
def drainBack (it : ι) : List β × ι :=
  collect nextBack (remaining it + 1) it

/-- All values that are left, from the front. -/
def toList (it : ι) : List β :=
  (drain it).1

/-- What one may ask of a traversal. -/
inductive Request where
  | next
  | back
  | nth (n : Nat)
  | nthBack (n : Nat)
  /-- How many values are left. -/
  | size
  /-- What a copy of the traversal still yields. -/
  | rest
  | drain
  | drainBack
  deriving DecidableEq, Repr

/-- What a traversal answers. -/
inductive Reply (β : Type v) where
  | value (x : Option β)
  | count (n : Nat)
  | values (xs : List β)
  deriving DecidableEq, Repr

/-- The reply to one request, and what is left then. -/
def serve (it : ι) : Request → Reply β × ι
  | .next => let (x, it) := next it; (.value x, it)
  | .back => let (x, it) := nextBack it; (.value x, it)
  | .nth n => let (x, it) := nth n it; (.value x, it)
  | .nthBack n => let (x, it) := nthBack n it; (.value x, it)
  | .size => (.count (remaining it), it)
  | .rest => (.values (toList it), it)
  | .drain => let (xs, it) := drain it; (.values xs, it)
  | .drainBack => let (xs, it) := drainBack it; (.values xs, it)

/-- The replies to a sequence of requests. -/
def serveAll (it : ι) : List Request → List (Reply β)
  | [] => []
  | request :: requests =>
    let (reply, it) := serve it request
    reply :: serveAll it requests

end Traversal

/-- A traversal with its ends exchanged. -/
structure Reversed (ι : Type u) where
  forward : ι

instance {ι : Type u} {β : Type v} [Traversal ι β] : Traversal (Reversed ι) β where
  next it := let (x, rest) := Traversal.nextBack it.forward; (x, ⟨rest⟩)
  nextBack it := let (x, rest) := Traversal.next it.forward; (x, ⟨rest⟩)
  remaining it := Traversal.remaining it.forward
  nth n it := let (x, rest) := Traversal.nthBack n it.forward; (x, ⟨rest⟩)
  nthBack n it := let (x, rest) := Traversal.nth n it.forward; (x, ⟨rest⟩)

end RingDeque
