import Mathlib.Data.List.Forall2
import RingDeque.Proofs.Operation

/-!
# A deque and a list side by side

A sequence of calls is made on a deque and, with the same arguments, on a list. Every call has an
allocator of its own, since what can be had changes while a program runs. After each call the two
have returned the same, and what the deque shows at its slots is the list.

Callers see a deque through its slots, so the agreement is stated in terms of them: `Reads` says
which slot shows which element.
-/

namespace RingDeque

variable {σ : Type u} {α : Type v}

/-- The element with index `i` stands in the slot that lies `i` slots behind `head`, counted around
the buffer. -/
structure Deque.Reads (d : Deque α) (xs : List α) : Prop where
  length_eq : d.length = xs.length
  slot_eq : ∀ i (hi : i < xs.length), d.slot ((d.head + i) % d.slotCount) = some xs[i]

theorem Deque.Holds.reads {d : Deque α} {xs : List α} (h : d.Holds xs) : d.Reads xs where
  length_eq := h.length_eq
  slot_eq i hi := by
    have place := h.slot_forward (Nat.lt_trans hi h.length_lt)
    rw [Circle.forward_eq_mod h.head_lt (by have := h.length_lt; omega)] at place
    rw [place, List.getElem?_eq_getElem hi]

namespace Operation

/-- What the calls return on a deque, each with the deque after it. -/
def runAll : List (Allocator × Operation σ α) → Deque α → List (Answer σ α × Deque α)
  | [], _ => []
  | (a, op) :: calls, d => op.run a d :: runAll calls (op.run a d).2

/-- What the calls return on a list, each with the list after it. -/
def onListAll : List (Allocator × Operation σ α) → List α → List (Answer σ α × List α)
  | [], _ => []
  | (_, op) :: calls, xs => op.onList xs :: onListAll calls (op.onList xs).2

/-- Every call is given the slots that it needs. -/
def AllServed : List (Allocator × Operation σ α) → Deque α → Prop
  | [], _ => True
  | (a, op) :: calls, d => op.Served a d ∧ AllServed calls (op.run a d).2

/-- What is compared after a call. -/
def Agrees (mine : Answer σ α × Deque α) (theirs : Answer σ α × List α) : Prop :=
  mine.1 = theirs.1 ∧ mine.2.Reads theirs.2

theorem forall₂_runAll {d : Deque α} {xs : List α} (h : d.Holds xs)
    {calls : List (Allocator × Operation σ α)} (lawful : ∀ call ∈ calls, call.2.Lawful)
    (served : AllServed calls d) :
    List.Forall₂ Agrees (runAll calls d) (onListAll calls xs) := by
  induction calls generalizing d xs with
  | nil => exact .nil
  | cons call calls ih =>
      obtain ⟨a, op⟩ := call
      obtain ⟨d', hd', holds⟩ := h.run op (lawful _ List.mem_cons_self) served.1
      have rest := ih holds (fun call hc => lawful call (List.mem_cons_of_mem _ hc))
        (by simpa only [hd'] using served.2)
      rw [runAll, onListAll, hd']
      exact .cons ⟨rfl, holds.reads⟩ rest

/-- The calls need not be served for this, and comparisons need not be orders. -/
theorem error?_runAll {d : Deque α} {xs : List α} (h : d.Holds xs)
    (calls : List (Allocator × Operation σ α)) :
    ∀ step ∈ runAll calls d, step.1.error? ≠ some .concurrentModification := by
  induction calls generalizing d xs with
  | nil => simp [runAll]
  | cons call calls ih =>
      obtain ⟨a, op⟩ := call
      obtain ⟨ys, holds, answer⟩ := h.run_any (a := a) op
      rw [runAll, List.forall_mem_cons]
      exact ⟨answer, ih holds⟩

/-- From an empty deque of any size, deque and list return the same and show the same after every
call, as long as the allocator provides the slots that are asked for. Whether or not it does, no
call reports a conflict. -/
theorem runAll_agrees (a : Allocator) (hint : Nat) (calls : List (Allocator × Operation σ α)) :
    ((∀ call ∈ calls, call.2.Lawful) → AllServed calls (.withCapacity a hint) →
      List.Forall₂ Agrees (runAll calls (.withCapacity a hint)) (onListAll calls [])) ∧
    ∀ step ∈ runAll calls (.withCapacity a hint), step.1.error? ≠ some .concurrentModification :=
  have start := Deque.holds_withCapacity a hint
  ⟨forall₂_runAll start, error?_runAll start calls⟩

/-- A deque that has to grow, on its way through the end of a buffer of one slot. -/
theorem runAll_agrees_growing :
    let a := Allocator.bounded 8 100
    let calls : List (Allocator × Operation Unit Nat) :=
      [(a, .pushFront 2), (a, .pushFront 1), (a, .insert 1 7), (a, .sortBy .natural ()),
      (a, .get 5)]
    (∀ call ∈ calls, call.2.Lawful) ∧ AllServed calls (.withCapacity a 0) ∧
      List.Forall₂ Agrees (runAll calls (.withCapacity a 0)) (onListAll calls []) := by
  intro a calls
  have lawful : ∀ call ∈ calls, call.2.Lawful := by
    simp only [calls, List.forall_mem_cons, Lawful, true_and]
    refine ⟨⟨compare, fun x y s => rfl, fun x y => ?_, fun x y z hxy hyz => ?_⟩, by simp⟩
    · simp only [ne_eq, Nat.compare_eq_gt]
      omega
    · simp only [ne_eq, Nat.compare_eq_gt] at *
      omega
  have served : AllServed calls (.withCapacity a 0) := by
    refine ⟨.inr ⟨4, by decide, by decide⟩, .inl (by decide), fun _ => .inl (by decide), trivial,
      trivial, trivial⟩
  exact ⟨lawful, served, (runAll_agrees a 0 calls).1 lawful served⟩

end Operation

end RingDeque
