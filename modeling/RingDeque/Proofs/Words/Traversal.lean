import RingDeque.Proofs.Iterators
import RingDeque.Proofs.Words.Updates

/-!
# Reading on words

A traversal that stands inside its buffer and has no more elements left than there are slots steps,
jumps and splits without leaving the words, and stays that way. Jumps are compared with the number
of elements that are left before they are added to a position. `skip` and `collect` are stated for
steps of any kind that keep some condition; what a whole conversation adds and subtracts follows by
induction on the requests.
-/

namespace RingDeque

namespace Traversal

variable {ι : Type u} {β : Type v}

/-- `skip` on words. -/
def skipOnWords (step : ι → Calculation (Option β × ι)) : Nat → ι → Calculation (Option β × ι)
  | 0, it => step it
  | n + 1, it =>
    (step it).bind fun
    | (none, it) => .result (none, it)
    | (some _, it) => skipOnWords step n it

/-- `collectAfter` on words. -/
def collectAfterOnWords (step : ι → Calculation (Option β × ι)) (collected : List β) :
    Nat → ι → Calculation (List β × ι)
  | 0, it => .result (collected.reverse, it)
  | n + 1, it =>
    (step it).bind fun
    | (none, it) => .result (collected.reverse, it)
    | (some x, it) => collectAfterOnWords step (x :: collected) n it

/-- A step computes its outcome wherever a condition holds, which holds afterwards as well. -/
structure StepsOnWords (Inside : ι → Prop) (onWords : ι → Calculation (Option β × ι))
    (step : ι → Option β × ι) :
    Prop where
  computes : ∀ it, Inside it → (onWords it).Computes (step it)
  inside : ∀ it, Inside it → Inside (step it).2

variable {Inside : ι → Prop} {onWords : ι → Calculation (Option β × ι)} {step : ι → Option β × ι}
    {it : ι}

theorem StepsOnWords.skip (steps : StepsOnWords Inside onWords step) (n : Nat) :
    StepsOnWords Inside (skipOnWords onWords n) (skip step n) := by
  induction n with
  | zero => exact steps
  | succ n ih =>
      constructor
      · intro it h
        refine (steps.computes it h).bind ?_
        have still := steps.inside it h
        rw [Traversal.skip]
        rcases answer : step it with ⟨_ | x, rest⟩
        · exact .result _
        · rw [answer] at still
          exact ih.computes rest still
      · intro it h
        have still := steps.inside it h
        rw [Traversal.skip]
        rcases answer : step it with ⟨_ | x, rest⟩
        · rwa [answer] at still
        · rw [answer] at still
          exact ih.inside rest still

theorem StepsOnWords.collectAfter (steps : StepsOnWords Inside onWords step) (collected : List β)
    (n : Nat) (h : Inside it) :
    (collectAfterOnWords onWords collected n it).Computes (collectAfter step collected n it) ∧
      Inside (collectAfter step collected n it).2 := by
  induction n generalizing collected it with
  | zero => exact ⟨.result _, h⟩
  | succ n ih =>
      have first := steps.computes it h
      have still := steps.inside it h
      rw [Traversal.collectAfter]
      rcases answer : step it with ⟨_ | x, rest⟩
      · rw [answer] at first still
        exact ⟨first.bind (.result _), still⟩
      · rw [answer] at first still
        obtain ⟨others, inside⟩ := ih (x :: collected) still
        exact ⟨first.bind others, inside⟩

end Traversal

namespace RingTraversal

open Traversal

variable {α : Type u} {it : RingTraversal α}

/-- `serve` on words. -/
def serveOnWords (it : RingTraversal α) :
    Traversal.Request → Calculation (Traversal.Reply α × RingTraversal α)
  | .next => it.nextOnWords.bind fun (x, it) => .result (.value x, it)
  | .back => it.nextBackOnWords.bind fun (x, it) => .result (.value x, it)
  | .nth n => (it.nthOnWords n).bind fun (x, it) => .result (.value x, it)
  | .nthBack n => (skipOnWords nextBackOnWords n it).bind fun (x, it) => .result (.value x, it)
  | .size => .result (.count it.remaining, it)
  | .rest =>
    (collectAfterOnWords nextOnWords [] (it.remaining + 1) it).bind fun (xs, _) =>
    .result (.values xs, it)
  | .drain =>
    (collectAfterOnWords nextOnWords [] (it.remaining + 1) it).bind fun (xs, it) =>
    .result (.values xs, it)
  | .drainBack =>
    (collectAfterOnWords nextBackOnWords [] (it.remaining + 1) it).bind fun (xs, it) =>
    .result (.values xs, it)

/-- `serveAll` on words. -/
def serveAllOnWords (it : RingTraversal α) :
    List Traversal.Request → Calculation (List (Traversal.Reply α))
  | [] => .result []
  | request :: requests =>
    (it.serveOnWords request).bind fun (reply, it) =>
    (it.serveAllOnWords requests).bind fun replies =>
    .result (reply :: replies)

/-- The traversal stands inside its buffer, which is not too large, and what is left is no more than
one round. -/
structure Inside (it : RingTraversal α) : Prop where
  front_lt : it.front < it.slots.size
  remaining_le : it.remaining ≤ it.slots.size
  size_lt : it.slots.size < 2 ^ 63

theorem Left.inside {xs : List α} (h : it.Left xs) (hm : it.slots.size < 2 ^ 63) : it.Inside where
  front_lt := h.front_lt
  remaining_le := Nat.le_trans (Nat.le_of_eq h.remaining_eq) h.length_le
  size_lt := hm

theorem Inside.forward (h : it.Inside) {n rest : Nat} (hn : n ≤ it.slots.size)
    (hr : rest ≤ it.remaining) :
    Inside { it with front := Circle.forward it.front n it.slots.size, remaining := rest } where
  front_lt := Circle.forward_lt h.front_lt hn
  remaining_le := Nat.le_trans hr h.remaining_le
  size_lt := h.size_lt

theorem steps_next : StepsOnWords (Inside (α := α)) nextOnWords next where
  computes it h := by
    have bound := h.remaining_le
    have size := h.size_lt
    refine .of_inRange ?_ rfl
    unfold nextOnWords
    split
    · exact .result _
    · exact .bind (Circle.computes_next h.front_lt size) (.sub (by omega) (by omega) (.result _))
  inside it h := by
    rw [next_eq]
    split
    · exact h
    · exact ⟨Circle.next_lt h.front_lt, Nat.le_trans (Nat.sub_le ..) h.remaining_le, h.size_lt⟩

/-- A step through the elements that are left. -/
theorem Left.computes_next {xs : List α} (h : it.Left xs) (hm : it.slots.size < 2 ^ 63) :
    ∃ rest, it.nextOnWords.Computes (xs.head?, rest) ∧ rest.Left xs.tail ∧
      rest.slots.size < 2 ^ 63 := by
  have inside := h.inside hm
  obtain ⟨rest, answer, left⟩ := h.next
  have computes := steps_next.computes it inside
  have inside' := steps_next.inside it inside
  rw [answer] at computes inside'
  exact ⟨rest, computes, left, inside'.size_lt⟩

theorem steps_nextBack : StepsOnWords (Inside (α := α)) nextBackOnWords nextBack where
  computes it h := by
    have bound := h.remaining_le
    have size := h.size_lt
    refine .of_inRange ?_ rfl
    unfold nextBackOnWords
    split
    · exact .result _
    · refine .sub (by omega) (by omega) ?_
      exact .bind (Circle.computes_forward h.front_lt (by omega) size) (.result _)
  inside it h := by
    rw [nextBack_eq]
    split
    · exact h
    · exact ⟨h.front_lt, Nat.le_trans (Nat.sub_le ..) h.remaining_le, h.size_lt⟩

/-- The count is added only when it is less than the number of elements that are left. -/
theorem steps_nth (n : Nat) : StepsOnWords (Inside (α := α)) (nthOnWords n) (nth n) where
  computes it h := by
    have bound := h.remaining_le
    have size := h.size_lt
    refine .of_inRange ?_ rfl
    unfold nthOnWords
    split
    · exact .bind (Circle.computes_forward h.front_lt bound size) (.result _)
    · refine .bind (Circle.computes_forward h.front_lt (by omega) size)
        (.sub (by omega) (by omega) ?_)
      exact (steps_next.computes _ (h.forward (by omega) (Nat.sub_le ..))).inRange
  inside it h := by
    have bound := h.remaining_le
    rw [nth_eq]
    split
    · exact h.forward bound (Nat.zero_le _)
    · exact steps_next.inside _ (h.forward (by omega) (Nat.sub_le ..))

/-- A jump over elements that are left. -/
theorem Left.computes_nth {xs : List α} (h : it.Left xs) (hm : it.slots.size < 2 ^ 63) (n : Nat) :
    ∃ rest, (it.nthOnWords n).Computes (xs[n]?, rest) ∧ rest.Left (xs.drop (n + 1)) ∧
      rest.slots.size < 2 ^ 63 := by
  have inside := h.inside hm
  obtain ⟨rest, answer, left⟩ := h.nth n
  have computes := (steps_nth n).computes it inside
  have inside' := (steps_nth n).inside it inside
  rw [answer] at computes inside'
  exact ⟨rest, computes, left, inside'.size_lt⟩

theorem Inside.computes_splitAt (h : it.Inside) (index : Nat) :
    (it.splitAtOnWords index).Computes (it.splitAt index) := by
  have bound := h.remaining_le
  have size := h.size_lt
  refine .of_inRange (.bind (Circle.computes_forward h.front_lt ?_ size) (.sub ?_ ?_ (.result _)))
    rfl
  · omega
  · omega
  · omega

theorem Inside.splitAt (h : it.Inside) (index : Nat) :
    (it.splitAt index).1.Inside ∧ (it.splitAt index).2.Inside := by
  have bound := h.remaining_le
  rw [splitAt_eq]
  constructor
  · exact ⟨h.front_lt, Nat.le_trans (Nat.min_le_right ..) bound, h.size_lt⟩
  · exact h.forward (Nat.le_trans (Nat.min_le_right ..) bound) (Nat.sub_le ..)

/-- A division of labour, however it goes on. -/
theorem Inside.computes_leaves (h : it.Inside) (tree : SplitTree) :
    (leavesOnWords tree it).Computes (leaves tree it) := by
  refine .of_inRange ?_ rfl
  induction tree generalizing it with
  | leaf => exact .result _
  | node index left right left_ih right_ih =>
      obtain ⟨first, second⟩ := h.splitAt index
      refine .bind (h.computes_splitAt index) ?_
      exact .bind (.of_inRange (left_ih first) rfl)
        (.bind (.of_inRange (right_ih second) rfl) (.result _))

theorem Inside.serve (h : it.Inside) (request : Traversal.Request) :
    (it.serveOnWords request).Computes (Traversal.serve it request) ∧
    (Traversal.serve it request).2.Inside := by
  cases request with
  | next => exact ⟨(steps_next.computes it h).bind (.result _), steps_next.inside it h⟩
  | back => exact ⟨(steps_nextBack.computes it h).bind (.result _), steps_nextBack.inside it h⟩
  | nth n => exact ⟨((steps_nth n).computes it h).bind (.result _), (steps_nth n).inside it h⟩
  | nthBack n =>
      exact ⟨((steps_nextBack.skip n).computes it h).bind (.result _),
        (steps_nextBack.skip n).inside it h⟩
  | size => exact ⟨.result _, h⟩
  | rest => exact ⟨(steps_next.collectAfter [] _ h).1.bind (.result _), h⟩
  | drain =>
      obtain ⟨collected, inside⟩ := steps_next.collectAfter [] (it.remaining + 1) h
      exact ⟨collected.bind (.result _), inside⟩
  | drainBack =>
      obtain ⟨collected, inside⟩ := steps_nextBack.collectAfter [] (it.remaining + 1) h
      exact ⟨collected.bind (.result _), inside⟩

theorem Inside.computes_serveAll (h : it.Inside) (requests : List Traversal.Request) :
    (it.serveAllOnWords requests).Computes (Traversal.serveAll it requests) := by
  induction requests generalizing it with
  | nil => exact .result _
  | cons request requests ih =>
      obtain ⟨served, inside⟩ := h.serve request
      exact served.bind ((ih inside).bind (.result _))

end RingTraversal

namespace Deque

variable {α : Type u} {d : Deque α}

theorem WellFormed.computes_traversal (h : d.WellFormed) (hm : d.slotCount < 2 ^ 63) :
    d.traversalOnWords.Computes d.traversal :=
  .of_inRange (.bind (h.computes_length hm) (.result _)) rfl

theorem WellFormed.inside_traversal (h : d.WellFormed) (hm : d.slotCount < 2 ^ 63) :
    d.traversal.Inside := by
  rw [traversal_eq]
  exact ⟨h.head_lt, Nat.le_of_lt h.length_lt, hm⟩

end Deque

end RingDeque
