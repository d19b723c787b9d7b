import Mathlib.Data.List.Forall2
import RingDeque.Proofs.Layout
import RingDeque.Splitter

/-!
# Splitters divide the elements among them

Splitters that come from one another stand in a row, each in front of the one that gave it away.
`Share` is what a member of the row has: the elements that are left to it, and in front of them
those that were consumed. A call takes elements from the front of what is left, or turns one share
into two. So the shares together are always the elements of the deque, in order, and none of them is
in two places.

A splitter has slots instead of a list, and a fresh one has not even these. `Covers` says which
elements a splitter stands for, from the run that it has or would be given now. Both kinds of rows
are run by the same function, and one lemma about a single call carries over to all rows and all
sequences of calls.

Dividing again and again ends because each half is shorter. `Divided` is this recursion without a
bound on its depth.
-/

namespace RingDeque

/-! ### Rows -/

namespace Row

variable {ι κ ρ γ α : Type*}

/-- Ask the member at a place of the row. The reply comes with the row in which others may stand at
that place. -/
def askAt (ask : ι → ρ × List ι) : List ι → Nat → Option ρ × List ι
  | [], _ => (none, [])
  | x :: row, 0 => let (reply, instead) := ask x; (some reply, instead ++ row)
  | x :: row, i + 1 => let (reply, row) := askAt ask row i; (reply, x :: row)

/-- The replies to a sequence of questions, each to the member at some place, and the row
afterwards. -/
def askAll (ask : γ → ι → ρ × List ι) : List (Nat × γ) → List ι → List (Option ρ) × List ι
  | [], row => ([], row)
  | (i, question) :: questions, row =>
    let (reply, row) := askAt (ask question) row i
    let (replies, row) := askAll ask questions row
    (reply :: replies, row)

/-- Rows whose members answer alike and are replaced alike. -/
theorem askAt_related {R : ι → κ → Prop} {ask : ι → ρ × List ι} {ask' : κ → ρ × List κ}
    (one : ∀ x y, R x y → (ask x).1 = (ask' y).1 ∧ List.Forall₂ R (ask x).2 (ask' y).2)
    {row : List ι} {row' : List κ} (h : List.Forall₂ R row row') (i : Nat) :
    (askAt ask row i).1 = (askAt ask' row' i).1 ∧
      List.Forall₂ R (askAt ask row i).2 (askAt ask' row' i).2 := by
  induction h generalizing i with
  | nil => exact ⟨rfl, .nil⟩
  | cons first rest ih =>
      cases i with
      | zero =>
          obtain ⟨same, instead⟩ := one _ _ first
          exact ⟨congrArg some same, List.rel_append instead rest⟩
      | succ i =>
          obtain ⟨same, row⟩ := ih i
          exact ⟨same, .cons first row⟩

theorem askAll_related {R : ι → κ → Prop} {ask : γ → ι → ρ × List ι} {ask' : γ → κ → ρ × List κ}
    (one : ∀ question x y, R x y → (ask question x).1 = (ask' question y).1 ∧
      List.Forall₂ R (ask question x).2 (ask' question y).2)
    {row : List ι} {row' : List κ} (h : List.Forall₂ R row row') (questions : List (Nat × γ)) :
    (askAll ask questions row).1 = (askAll ask' questions row').1 ∧
      List.Forall₂ R (askAll ask questions row).2 (askAll ask' questions row').2 := by
  induction questions generalizing row row' with
  | nil => exact ⟨rfl, h⟩
  | cons question questions ih =>
      obtain ⟨same, row⟩ := askAt_related (one question.2) h question.1
      obtain ⟨replies, row⟩ := ih row
      exact ⟨congrArg₂ List.cons same replies, row⟩

/-- What the members have together stays the same if it does so at the place that is asked. -/
theorem flatMap_askAt {all : ι → List α} {ask : ι → ρ × List ι}
    (one : ∀ x, (ask x).2.flatMap all = all x) (row : List ι) (i : Nat) :
    (askAt ask row i).2.flatMap all = row.flatMap all := by
  induction row generalizing i with
  | nil => rfl
  | cons x row ih =>
      cases i with
      | zero =>
          change ((ask x).2 ++ row).flatMap all = _
          rw [List.flatMap_append, one, List.flatMap_cons]
      | succ i =>
          change (x :: (askAt ask row i).2).flatMap all = _
          rw [List.flatMap_cons, ih, List.flatMap_cons]

theorem flatMap_askAll {all : ι → List α} {ask : γ → ι → ρ × List ι}
    (one : ∀ question x, (ask question x).2.flatMap all = all x) (questions : List (Nat × γ))
    (row : List ι) : (askAll ask questions row).2.flatMap all = row.flatMap all := by
  induction questions generalizing row with
  | nil => rfl
  | cons question questions ih =>
      exact (ih _).trans (flatMap_askAt (one question.2) row question.1)

theorem reply_askAt {P : ρ → Prop} {ask : ι → ρ × List ι} (one : ∀ x, P (ask x).1)
    {row : List ι} {i : Nat} {reply : ρ} (hr : (askAt ask row i).1 = some reply) : P reply := by
  induction row generalizing i with
  | nil => contradiction
  | cons x row ih =>
      cases i with
      | zero =>
          cases hr
          exact one x
      | succ i => exact ih hr

theorem reply_askAll {P : ρ → Prop} {ask : γ → ι → ρ × List ι}
    (one : ∀ question x, P (ask question x).1) {questions : List (Nat × γ)} {row : List ι}
    {reply : ρ} (hr : some reply ∈ (askAll ask questions row).1) : P reply := by
  induction questions generalizing row with
  | nil => contradiction
  | cons question questions ih =>
      obtain here | later := List.mem_cons.1 hr
      · exact reply_askAt (one question.2) here.symm
      · exact ih later

end Row

variable {σ : Type u} {α : Type v}

/-! ### Calls -/

namespace Splitter

/-- A call on a splitter. A callback comes with the state it starts in. -/
inductive Call (σ : Type u) (α : Type v) where
  | trySplit
  | tryAdvance (action : Callback σ α Unit) (s : σ)
  | next
  | nth (n : Nat)
  | estimateSize
  | size
  | forEachRemaining (action : Callback σ α Unit) (s : σ)

/-- What a call returns. Where it gives away a splitter, that one joins the row. -/
inductive Reply (σ : Type u) (α : Type v) where
  | divided (gave : Bool)
  | advanced (result : Except Fault (Except Error Bool)) (s : σ)
  | element (x? : Option α)
  | count (n : Nat)
  | visited (result : Except Fault (Except Error Unit)) (s : σ)

/-- The error that a call returned. -/
def Reply.error? : Reply σ α → Option Error
  | .advanced (.ok (.error e)) _ | .visited (.ok (.error e)) _ => some e
  | _ => none

/-- Make the call on a splitter of the deque. The reply comes with those that stand in its place
afterwards. -/
def call (d : Deque α) : Call σ α → Splitter → Reply σ α × List Splitter
  | .trySplit, sp =>
    match sp.trySplit d with
    | (none, sp) => (.divided false, [sp])
    | (some first, second) => (.divided true, [first, second])
  | .tryAdvance action s, sp =>
    let ((result, sp), s) := sp.tryAdvance action d s; (.advanced result s, [sp])
  | .next, sp => let (x?, sp) := sp.next d; (.element x?, [sp])
  | .nth n, sp => let (x?, sp) := sp.nth n d; (.element x?, [sp])
  | .estimateSize, sp => let (n, sp) := sp.estimateSize d; (.count n, [sp])
  | .size, sp => (.count (sp.size d), [sp])
  | .forEachRemaining action s, sp =>
    let ((result, sp), s) := sp.forEachRemaining action d s; (.visited result s, [sp])

end Splitter

open Splitter (Call Reply)

/-- A run of elements, those in front already consumed. -/
structure Share (α : Type u) where
  taken : List α
  rest : List α

namespace Share

/-- All elements of the run. -/
def all (p : Share α) : List α :=
  p.taken ++ p.rest

/-- The share after `n` more elements were consumed, or all of them if there are fewer. -/
def consume (n : Nat) (p : Share α) : Share α :=
  ⟨p.taken ++ p.rest.take n, p.rest.drop n⟩

/-- What the call returns, and the shares that stand in the place of this one. -/
def call : Call σ α → Share α → Reply σ α × List (Share α)
  | .trySplit, p =>
    let half := p.rest.length / 2
    if p.rest.length < 2 then
      (.divided false, [p])
    else
      (.divided true, [⟨p.taken, p.rest.take half⟩, ⟨[], p.rest.drop half⟩])
  | .tryAdvance action s, p =>
    match p.rest with
    | [] => (.advanced (.ok (.ok false)) s, [p])
    | x :: _ =>
      let (result, s) := action x s
      (.advanced (result.map fun _ => .ok true) s, [p.consume 1])
  | .next, p => (.element p.rest.head?, [p.consume 1])
  | .nth n, p => (.element p.rest[n]?, [p.consume (n + 1)])
  | .estimateSize, p | .size, p => (.count p.rest.length, [p])
  | .forEachRemaining action s, p =>
    let (seen, s) := traverse action p.rest s
    (.visited (seen.complete.map fun _ => .ok ()) s, [p.consume p.rest.length])

@[simp] theorem all_consume (n : Nat) (p : Share α) : (p.consume n).all = p.all := by
  rw [all, consume, List.append_assoc, List.take_append_drop, all]

/-- No call moves an element from one place to another, or loses it. -/
theorem flatMap_all_call (call : Call σ α) (p : Share α) :
    (p.call call).2.flatMap all = p.all := by
  cases call with
  | trySplit =>
      rw [Share.call]
      split
      · exact List.append_nil _
      · simp [all]
  | tryAdvance action s =>
      rw [Share.call]
      split
      · exact List.append_nil _
      · exact (List.append_nil _).trans (all_consume 1 p)
  | next => exact (List.append_nil _).trans (all_consume 1 p)
  | nth n => exact (List.append_nil _).trans (all_consume (n + 1) p)
  | estimateSize => exact List.append_nil _
  | size => exact List.append_nil _
  | forEachRemaining action s => exact (List.append_nil _).trans (all_consume _ p)

theorem error?_call (call : Call σ α) (p : Share α) : (p.call call).1.error? = none := by
  cases call with
  | trySplit =>
      rw [Share.call]
      split
      · rfl
      · rfl
  | tryAdvance action s =>
      rw [Share.call]
      split
      · rfl
      · next x rest heq =>
          rcases action x s with ⟨_ | _, s'⟩
          · rfl
          · rfl
  | forEachRemaining action s =>
      rw [Share.call]
      rcases traverse action p.rest s with ⟨⟨seen, _ | fault⟩, s'⟩
      · rfl
      · rfl
  | _ => rfl

end Share

/-! ### Which elements a splitter stands for -/

namespace Splitter

variable {sp : Splitter} {d : Deque α} {xs : List α} {x : α} {lo n : Nat}

/-- The splitter whose run is the `n` elements from index `lo` on. -/
def between (d : Deque α) (lo n : Nat) : Splitter :=
  ⟨some (d.position (lo + n)), d.position lo⟩

/-- The run that the splitter has, or is given at its first use, is the elements `xs` from index
`lo` on. -/
structure CoversFrom (sp : Splitter) (d : Deque α) (lo : Nat) (xs : List α) : Prop where
  bind_eq : sp.bind d = (d.position (lo + xs.length), between d lo xs.length)
  bound : lo + xs.length ≤ d.toList.length
  segment : ∀ k < xs.length, xs[k]? = d.toList[lo + k]?

/-- The elements that are left to the splitter. -/
def Covers (sp : Splitter) (d : Deque α) (xs : List α) : Prop :=
  ∃ lo, sp.CoversFrom d lo xs

theorem coversFrom_between (bound : lo + xs.length ≤ d.toList.length)
    (segment : ∀ k < xs.length, xs[k]? = d.toList[lo + k]?) :
    (between d lo xs.length).CoversFrom d lo xs :=
  ⟨rfl, bound, segment⟩

/-- A fresh splitter stands for all elements. -/
theorem covers_unbound (h : d.WellFormed) : unbound.Covers d d.toList := by
  refine ⟨0, ?_, ?_, ?_⟩
  · have front : d.position 0 = d.head := Circle.forward_zero h.head_lt
    rw [between, Nat.zero_add, h.holds.position_length, front]
    rfl
  · exact Nat.le_of_eq (Nat.zero_add _)
  · intro k hk
    rw [Nat.zero_add]

namespace CoversFrom

/-- The first elements of the run and the others. -/
theorem take (c : sp.CoversFrom d lo xs) (hn : n ≤ xs.length) :
    (between d lo n).CoversFrom d lo (xs.take n) := by
  have bound := c.bound
  have length : (xs.take n).length = n := List.length_take_of_le hn
  have first : (between d lo (xs.take n).length).CoversFrom d lo (xs.take n) := by
    refine coversFrom_between (by omega) ?_
    intro k hk
    rw [List.getElem?_take_of_lt (by omega), c.segment k (by omega)]
  rwa [length] at first

theorem drop (c : sp.CoversFrom d lo xs) (hn : n ≤ xs.length) :
    (between d (lo + n) (xs.length - n)).CoversFrom d (lo + n) (xs.drop n) := by
  have bound := c.bound
  have length : (xs.drop n).length = xs.length - n := List.length_drop
  have others : (between d (lo + n) (xs.drop n).length).CoversFrom d (lo + n) (xs.drop n) := by
    refine coversFrom_between (by omega) ?_
    intro k hk
    rw [List.getElem?_drop, c.segment (n + k) (by omega), Nat.add_assoc]
  rwa [length] at others

/-- What is left is known by where it ends. -/
theorem drop_fence (hn : n ≤ xs.length) :
    (⟨some (d.position (lo + xs.length)), d.position (lo + n)⟩ : Splitter) =
      between d (lo + n) (xs.length - n) := by
  rw [between, Nat.add_assoc, Nat.add_sub_cancel' hn]

theorem steps_eq (c : sp.CoversFrom d lo xs) (h : d.WellFormed) :
    Circle.steps (d.position lo) (d.position (lo + xs.length)) d.slotCount = xs.length := by
  have bound := c.bound
  have length := h.holds.length_lt
  rw [Deque.position, Deque.position,
    Circle.steps_forward_forward h.head_lt (Nat.le_add_right ..) (by omega),
    Nat.add_sub_cancel_left]

theorem at_fence_iff (c : sp.CoversFrom d lo xs) (h : d.WellFormed) :
    d.position lo = d.position (lo + xs.length) ↔ xs = [] := by
  have bound := c.bound
  have length := h.holds.length_lt
  rw [Deque.position, Deque.position, Circle.forward_inj (by omega) (by omega),
    ← List.length_eq_zero_iff]
  omega

theorem slot_eq (c : sp.CoversFrom d lo xs) (h : d.WellFormed) (hn : n < xs.length) :
    d.slot (d.position (lo + n)) = xs[n]? := by
  have bound := c.bound
  have length := h.holds.length_lt
  rw [h.holds.slot_position (by omega), c.segment n hn]

theorem next_position (c : sp.CoversFrom d lo xs) (h : d.WellFormed) (hn : n < xs.length) :
    Circle.next (d.position (lo + n)) d.slotCount = d.position (lo + (n + 1)) := by
  have bound := c.bound
  have length := h.holds.length_lt
  exact Circle.next_forward h.head_lt (by omega)

/-- The splitter moves past its first element. -/
theorem advance (c : sp.CoversFrom d lo (x :: xs)) (h : d.WellFormed) :
    ({ between d lo (x :: xs).length with
      position := Circle.next (d.position lo) d.slotCount } : Splitter).CoversFrom d
        (lo + 1) xs := by
  have past := c.next_position h (n := 0) (Nat.succ_pos _)
  have rest := c.drop (n := 1) (Nat.succ_pos _)
  rw [← drop_fence (Nat.succ_pos _)] at rest
  rw [Nat.add_zero] at past
  rw [past]
  exact rest

theorem first_eq (c : sp.CoversFrom d lo (x :: xs)) (h : d.WellFormed) :
    d.slot (d.position lo) = some x :=
  c.slot_eq h (n := 0) (Nat.succ_pos _)

theorem not_at_fence (c : sp.CoversFrom d lo (x :: xs)) (h : d.WellFormed) :
    ¬d.position lo = d.position (lo + (x :: xs).length) := by
  rw [c.at_fence_iff h]
  exact List.cons_ne_nil x xs

/-- The last slot of the run is in use. -/
theorem isSome_last (c : sp.CoversFrom d lo (x :: xs)) (h : d.WellFormed) :
    (d.slot (Circle.prev (d.position (lo + (x :: xs).length)) d.slotCount)).isSome := by
  have bound := c.bound
  have length := h.holds.length_lt
  rw [List.length_cons] at bound
  have inside : lo + xs.length < d.slotCount := by omega
  have last : Circle.prev (d.position (lo + (x :: xs).length)) d.slotCount =
      d.position (lo + xs.length) := Circle.prev_forward_succ h.head_lt inside
  rw [last, c.slot_eq h (Nat.lt_succ_self _), List.getElem?_eq_getElem (Nat.lt_succ_self _)]
  rfl

/-- The elements of the run are read as they are shown. -/
theorem visit_eq (c : sp.CoversFrom d lo xs) (h : d.WellFormed) (action : Callback σ α Unit)
    {k : Nat} (hk : k + n = xs.length) (s : σ) :
    visit action d n (d.position (lo + k)) s =
      ((traverse action (xs.drop k) s).1.complete.map fun _ => (),
        (traverse action (xs.drop k) s).2) := by
  induction n generalizing k s with
  | zero =>
      rw [List.drop_of_length_le (by omega)]
      rfl
  | succ n ih =>
      have inside : k < xs.length := by omega
      rw [visit_succ, c.slot_eq h inside, List.getElem?_eq_getElem inside, c.next_position h inside,
        List.drop_eq_getElem_cons inside, traverse_cons]
      dsimp only
      rcases action xs[k] s with ⟨fault | ⟨⟩, s'⟩
      · rfl
      · dsimp only
        rw [ih (by omega)]
        generalize traverse action (xs.drop (k + 1)) s' = others
        obtain ⟨⟨seen, _ | fault⟩, t⟩ := others
        · rfl
        · rfl

end CoversFrom

/-- What is left is counted the same whether the splitter has its run already or not. -/
theorem size_eq_steps (sp : Splitter) (d : Deque α) :
    sp.size d = Circle.steps (sp.bind d).2.position (sp.bind d).1 d.slotCount := by
  obtain ⟨_ | fence, position⟩ := sp
  · rfl
  · rfl

namespace Covers

theorem size_eq (c : sp.Covers d xs) (h : d.WellFormed) : sp.size d = xs.length := by
  obtain ⟨lo, c⟩ := c
  rw [size_eq_steps, c.bind_eq]
  exact c.steps_eq h

theorem estimateSize (c : sp.Covers d xs) (h : d.WellFormed) :
    ∃ sp', sp.estimateSize d = (xs.length, sp') ∧ sp'.Covers d xs := by
  obtain ⟨lo, c⟩ := c
  rw [Splitter.estimateSize_eq, c.bind_eq]
  refine ⟨between d lo xs.length, ?_, lo, coversFrom_between c.bound c.segment⟩
  exact congrArg (·, between d lo xs.length) (c.steps_eq h)

/-- With fewer than two elements nothing is given away. -/
theorem trySplit_of_lt (c : sp.Covers d xs) (h : d.WellFormed) (few : xs.length < 2) :
    ∃ sp', sp.trySplit d = (none, sp') ∧ sp'.Covers d xs := by
  obtain ⟨lo, c⟩ := c
  have steps := c.steps_eq h
  refine ⟨between d lo xs.length, ?_, lo, coversFrom_between c.bound c.segment⟩
  simp only [Splitter.trySplit_eq, c.bind_eq]
  rw [if_pos]
  change Circle.steps (d.position lo) (d.position (lo + xs.length)) d.slotCount / 2 = 0
  omega

/-- Otherwise it is the first half, the smaller one. -/
theorem trySplit (c : sp.Covers d xs) (h : d.WellFormed) (many : ¬xs.length < 2) :
    ∃ first second, sp.trySplit d = (some first, second) ∧
      first.Covers d (xs.take (xs.length / 2)) ∧ second.Covers d (xs.drop (xs.length / 2)) := by
  obtain ⟨lo, c⟩ := c
  have steps := c.steps_eq h
  have bound := c.bound
  have length := h.holds.length_lt
  have half : xs.length / 2 ≤ xs.length := by omega
  have middle : Circle.forward (d.position lo) (xs.length / 2) d.slotCount =
      d.position (lo + xs.length / 2) := Circle.forward_forward h.head_lt (by omega)
  refine ⟨_, _, ?_, ⟨lo, c.take half⟩, ⟨_, c.drop half⟩⟩
  simp only [Splitter.trySplit_eq, c.bind_eq]
  change (if Circle.steps (d.position lo) (d.position (lo + xs.length)) d.slotCount / 2 = 0
    then _ else _) = _
  rw [steps, if_neg (by omega), ← CoversFrom.drop_fence half]
  simp only [between, steps, middle]

theorem next (c : sp.Covers d xs) (h : d.WellFormed) :
    ∃ sp', sp.next d = (xs.head?, sp') ∧ sp'.Covers d xs.tail := by
  obtain ⟨lo, c⟩ := c
  rw [Splitter.next_eq, c.bind_eq]
  cases xs with
  | nil => exact ⟨_, if_pos rfl, lo, coversFrom_between c.bound c.segment⟩
  | cons x xs =>
      refine ⟨_, ?_, lo + 1, c.advance h⟩
      dsimp only [between]
      rw [if_neg (c.not_at_fence h), c.first_eq h]
      rfl

theorem nth (c : sp.Covers d xs) (h : d.WellFormed) (n : Nat) :
    ∃ sp', sp.nth n d = (xs[n]?, sp') ∧ sp'.Covers d (xs.drop (n + 1)) := by
  induction n generalizing sp xs with
  | zero =>
      obtain ⟨sp', answer, rest⟩ := c.next h
      rw [List.drop_one, ← List.head?_eq_getElem?]
      exact ⟨sp', answer, rest⟩
  | succ n ih =>
      obtain ⟨sp', answer, rest⟩ := c.next h
      rw [Splitter.nth, Traversal.skip, answer]
      cases xs with
      | nil => exact ⟨sp', rfl, rest⟩
      | cons x xs => exact ih rest

theorem tryAdvance_nil (c : sp.Covers d []) (action : Callback σ α Unit) (s : σ) :
    ∃ sp', sp.tryAdvance action d s = ((.ok (.ok false), sp'), s) ∧ sp'.Covers d ([] : List α) := by
  obtain ⟨lo, c⟩ := c
  rw [Splitter.tryAdvance_eq, c.bind_eq]
  exact ⟨_, if_pos rfl, lo, coversFrom_between c.bound c.segment⟩

/-- The splitter is past the element before it shows it, so a fault does not bring it back. -/
theorem tryAdvance_cons (c : sp.Covers d (x :: xs)) (h : d.WellFormed)
    (action : Callback σ α Unit) (s : σ) :
    ∃ sp', sp.tryAdvance action d s =
        (((action x s).1.map fun _ => .ok true, sp'), (action x s).2) ∧ sp'.Covers d xs := by
  obtain ⟨lo, c⟩ := c
  refine ⟨_, ?_, lo + 1, c.advance h⟩
  rw [Splitter.tryAdvance_eq, c.bind_eq]
  dsimp only [between]
  rw [if_neg (c.not_at_fence h), c.first_eq h]
  dsimp only
  rcases action x s with ⟨_ | _, s'⟩
  · rfl
  · rfl

theorem forEachRemaining (c : sp.Covers d xs) (h : d.WellFormed) (action : Callback σ α Unit)
    (s : σ) :
    ∃ sp', sp.forEachRemaining action d s =
        (((traverse action xs s).1.complete.map fun _ => .ok (), sp'), (traverse action xs s).2) ∧
      sp'.Covers d ([] : List α) := by
  obtain ⟨lo, c⟩ := c
  rw [Splitter.forEachRemaining_eq, c.bind_eq]
  cases xs with
  | nil => exact ⟨_, if_pos rfl, lo, coversFrom_between c.bound c.segment⟩
  | cons x xs =>
      have shown := c.visit_eq h action (k := 0) (Nat.zero_add _) s
      have done := c.drop (Nat.le_refl _)
      rw [← CoversFrom.drop_fence (Nat.le_refl _), List.drop_length] at done
      refine ⟨_, ?_, _, done⟩
      dsimp only [between]
      rw [if_neg (c.not_at_fence h), c.first_eq h, c.steps_eq h]
      rw [Option.isNone_some, if_neg Bool.false_ne_true, ← Option.not_isSome, c.isSome_last h]
      rw [Nat.add_zero, List.drop_zero] at shown
      rw [Bool.not_true, if_neg Bool.false_ne_true, shown]
      rcases traverse action (x :: xs) s with ⟨⟨seen, _ | fault⟩, s'⟩
      · rfl
      · rfl

theorem collect_eq (c : sp.Covers d xs) (h : d.WellFormed) :
    ∃ sp', Traversal.collect (fun sp => Splitter.next sp d) (xs.length + 1) sp = (xs, sp') ∧
      sp'.Covers d ([] : List α) := by
  induction xs generalizing sp with
  | nil =>
      obtain ⟨sp', answer, rest⟩ := c.next h
      rw [Traversal.collect_succ, answer]
      exact ⟨sp', rfl, rest⟩
  | cons x xs ih =>
      obtain ⟨sp', answer, rest⟩ := c.next h
      obtain ⟨sp'', others, done⟩ := ih rest
      rw [Traversal.collect_succ, answer]
      refine ⟨sp'', ?_, done⟩
      rw [List.length_cons]
      simp only [List.head?_cons, others]

theorem drain_eq (c : sp.Covers d xs) (h : d.WellFormed) : (sp.drain d).1 = xs := by
  obtain ⟨sp', answer, -⟩ := c.collect_eq h
  rw [drain, c.size_eq h, answer]

end Covers

/-- The splitter stands for what is left of the share. -/
def Follows (d : Deque α) (sp : Splitter) (p : Share α) : Prop :=
  sp.Covers d p.rest

/-- One call: splitter and share return the same, and those in their places still belong
together. -/
theorem Covers.call {p : Share α} (c : sp.Covers d p.rest) (h : d.WellFormed) (call : Call σ α) :
    (sp.call d call).1 = (p.call call).1 ∧
      List.Forall₂ (Follows d) (sp.call d call).2 (p.call call).2 := by
  have alone {sp' : Splitter} {p' : Share α} (c' : sp'.Covers d p'.rest) :
      List.Forall₂ (Follows d) [sp'] [p'] := .cons c' .nil
  cases call with
  | trySplit =>
      rw [Splitter.call, Share.call]
      by_cases few : p.rest.length < 2
      · obtain ⟨sp', answer, still⟩ := c.trySplit_of_lt h few
        rw [answer, if_pos few]
        exact ⟨rfl, alone still⟩
      · obtain ⟨first, second, answer, front, back⟩ := c.trySplit h few
        rw [answer, if_neg few]
        exact ⟨rfl, .cons front (alone back)⟩
  | tryAdvance action s =>
      rw [Splitter.call, Share.call]
      obtain ⟨taken, _ | ⟨x, rest⟩⟩ := p
      · obtain ⟨sp', answer, still⟩ := Covers.tryAdvance_nil c action s
        rw [answer]
        exact ⟨rfl, alone still⟩
      · obtain ⟨sp', answer, still⟩ := Covers.tryAdvance_cons c h action s
        rw [answer]
        exact ⟨rfl, alone still⟩
  | next =>
      obtain ⟨sp', answer, still⟩ := c.next h
      rw [← List.drop_one] at still
      rw [Splitter.call, answer]
      exact ⟨rfl, alone still⟩
  | nth n =>
      obtain ⟨sp', answer, still⟩ := c.nth h n
      rw [Splitter.call, answer]
      exact ⟨rfl, alone still⟩
  | estimateSize =>
      obtain ⟨sp', answer, still⟩ := c.estimateSize h
      rw [Splitter.call, answer]
      exact ⟨rfl, alone still⟩
  | size =>
      rw [Splitter.call, c.size_eq h]
      exact ⟨rfl, alone c⟩
  | forEachRemaining action s =>
      obtain ⟨sp', answer, still⟩ := c.forEachRemaining h action s
      rw [← List.drop_length (l := p.rest)] at still
      rw [Splitter.call, answer]
      exact ⟨rfl, alone still⟩

/-! ### Dividing until nothing splits -/

/-- The parts that come out when a splitter is divided, and so are those that it gives away, until
none divides. -/
inductive Divided (d : Deque α) : Splitter → List (List α) → Prop where
  | whole {sp sp' : Splitter} (h : sp.trySplit d = (none, sp')) : Divided d sp [(sp'.drain d).1]
  | halves {sp first second : Splitter} {front back : List (List α)}
      (h : sp.trySplit d = (some first, second)) (hf : Divided d first front)
      (hs : Divided d second back) : Divided d sp (front ++ back)

/-- Each half is shorter than the whole, so no more rounds are needed than there are elements. -/
theorem Covers.divided (c : sp.Covers d xs) (h : d.WellFormed) {rounds : Nat}
    (enough : xs.length ≤ rounds) : Divided d sp (parts d rounds sp) := by
  induction rounds generalizing sp xs with
  | zero =>
      have few : xs.length < 2 := by omega
      obtain ⟨sp', answer, still⟩ := c.trySplit_of_lt h few
      rw [parts, c.drain_eq h, ← still.drain_eq h]
      exact .whole answer
  | succ rounds ih =>
      rw [parts]
      by_cases few : xs.length < 2
      · obtain ⟨sp', answer, -⟩ := c.trySplit_of_lt h few
        rw [answer]
        exact .whole answer
      · obtain ⟨first, second, answer, front, back⟩ := c.trySplit h few
        rw [answer]
        refine .halves answer (ih front ?_) (ih back ?_)
        · rw [List.length_take]
          omega
        · rw [List.length_drop]
          omega

/-- However the elements are divided, the parts are theirs in order, and nothing is left that
divides. -/
theorem Covers.parts_of_divided {ps : List (List α)} (divided : Divided d sp ps)
    (c : sp.Covers d xs) (h : d.WellFormed) : ps.flatten = xs ∧ ∀ part ∈ ps, part.length < 2 := by
  induction divided generalizing xs with
  | whole answer =>
      by_cases few : xs.length < 2
      · obtain ⟨sp'', answer', still⟩ := c.trySplit_of_lt h few
        rw [answer] at answer'
        cases answer'
        rw [still.drain_eq h, List.forall_mem_singleton]
        exact ⟨List.append_nil xs, few⟩
      · obtain ⟨first, second, answer', -⟩ := c.trySplit h few
        rw [answer] at answer'
        cases answer'
  | halves answer _ _ ihf ihs =>
      by_cases few : xs.length < 2
      · obtain ⟨sp'', answer', -⟩ := c.trySplit_of_lt h few
        rw [answer] at answer'
        cases answer'
      · obtain ⟨first, second, answer', front, back⟩ := c.trySplit h few
        rw [answer] at answer'
        cases answer'
        obtain ⟨flat, short⟩ := ihf front
        obtain ⟨flat', short'⟩ := ihs back
        rw [List.flatten_append, flat, flat', List.take_append_drop, List.forall_mem_append]
        exact ⟨rfl, short, short'⟩

/-- The elements `xs` are left to the splitter: it counts them, yields them from the front, and
divides them until each part has one of them or none. -/
structure Has (sp : Splitter) (d : Deque α) (xs : List α) : Prop where
  size_eq : sp.size d = xs.length
  estimateSize_eq : (sp.estimateSize d).1 = xs.length
  drain_eq : (sp.drain d).1 = xs
  divided : sp.Divided d (parts d (sp.size d) sp)
  flatten_eq : ∀ ps, sp.Divided d ps → ps.flatten = xs ∧ ∀ part ∈ ps, part.length < 2

theorem Covers.has (c : sp.Covers d xs) (h : d.WellFormed) : sp.Has d xs where
  size_eq := c.size_eq h
  estimateSize_eq := by
    obtain ⟨sp', answer, -⟩ := c.estimateSize h
    rw [answer]
  drain_eq := c.drain_eq h
  divided := c.divided h (Nat.le_of_eq (c.size_eq h).symm)
  flatten_eq ps divided := c.parts_of_divided divided h

end Splitter

/-- Whatever is called on the splitters that came from one, in whatever order: they return what the
shares of a list return, none of them meets an error, each has what is left of its share, and the
shares together are the elements of the deque. -/
theorem Deque.WellFormed.splitters_divide {d : Deque α} (h : d.WellFormed)
    (calls : List (Nat × Splitter.Call σ α)) :
    let (replies, row) := Row.askAll (Splitter.call d) calls [d.splitter]
    let (replies', shares) := Row.askAll Share.call calls [⟨[], d.toList⟩]
    replies = replies' ∧ (∀ reply, some reply ∈ replies → reply.error? = none) ∧
      List.Forall₂ (fun sp p => sp.Has d p.rest) row shares ∧
      shares.flatMap Share.all = d.toList := by
  have start : List.Forall₂ (Splitter.Follows d) [d.splitter] [⟨[], d.toList⟩] :=
    .cons (Splitter.covers_unbound h) .nil
  obtain ⟨same, follow⟩ :=
    Row.askAll_related (fun call _ _ c => Splitter.Covers.call c h call) start
    calls
  refine ⟨same, ?_, follow.imp fun _ _ c => Splitter.Covers.has c h, ?_⟩
  · intro reply hr
    rw [same] at hr
    exact Row.reply_askAll (P := fun reply => reply.error? = none) Share.error?_call hr
  · exact (Row.flatMap_askAll Share.flatMap_all_call calls _).trans (List.append_nil _)

/-- Five elements that run past the end of the buffer. The second half is divided after one element
was taken from it, and the last part gives up two. -/
theorem Deque.WellFormed.splitters_divide_wrapped :
    let d : Deque Nat := ⟨#[some 3, some 4, some 5, none, some 1, some 2], 4, 3⟩
    let calls : List (Nat × Splitter.Call Unit Nat) :=
      [(0, .trySplit), (1, .next), (1, .trySplit), (0, .size), (2, .nth 1)]
    let (replies, row) := Row.askAll (Splitter.call d) calls [d.splitter]
    let (replies', shares) := Row.askAll Share.call calls [⟨[], d.toList⟩]
    d.WellFormed ∧ replies = replies' ∧
      (∀ reply, some reply ∈ replies → reply.error? = none) ∧
      List.Forall₂ (fun sp p => sp.Has d p.rest) row shares ∧
      shares.flatMap Share.all = d.toList := by
  intro d calls
  have ordered : d.WellFormed := Deque.isWellFormed_iff.1 (by decide)
  exact ⟨ordered, splitters_divide ordered calls⟩

end RingDeque
