import Mathlib.Data.List.Forall2
import RingDeque.Proofs.Ends
import RingDeque.Proofs.DoubleEnded
import RingDeque.Traversal.Draining
import RingDeque.Traversal.Ring
import RingDeque.Traversal.Slots

/-!
# The iterators of a deque

There are three ways to go through the elements: to read them by a slot and a count, to take them
out, and to walk over the slots of both legs in order to write. All mirror the list of the elements,
wherever these stand in the buffer, and so do the parts into which the first one is divided.

Whoever writes to the elements may keep what the iterator yielded and write through it at any time,
also while the iterator goes on. `Writer` is such a run, and also what the run is on the indices of
a list.
-/

namespace RingDeque

open Traversal (Mirrors)

variable {α : Type u} {β : Type v} {xs : List α}

/-! ### Reading -/

namespace RingTraversal

variable {it : RingTraversal α} {n : Nat}

/-- The elements `xs` stand in the slots from the front of the traversal on. -/
structure Left (it : RingTraversal α) (xs : List α) : Prop where
  front_lt : it.front < it.slots.size
  length_le : xs.length ≤ it.slots.size
  remaining_eq : it.remaining = xs.length
  view_eq : ∀ k < xs.length, it.slots.view it.front k = xs[k]?

theorem Left.take (h : it.Left xs) (hn : n ≤ xs.length) :
    Left ⟨it.slots, it.front, n⟩ (xs.take n) := by
  have length : (xs.take n).length = n := List.length_take_of_le hn
  refine ⟨h.front_lt, ?_, length.symm, fun k hk => ?_⟩
  · rw [length]
    exact Nat.le_trans hn h.length_le
  · rw [length] at hk
    rw [h.view_eq k (Nat.lt_of_lt_of_le hk hn), List.getElem?_take_of_lt hk]

theorem Left.drop (h : it.Left xs) (hn : n ≤ xs.length) :
    Left ⟨it.slots, Circle.forward it.front n it.slots.size, it.remaining - n⟩ (xs.drop n) := by
  have fits := h.length_le
  refine ⟨Circle.forward_lt h.front_lt (Nat.le_trans hn fits), ?_, ?_, fun k hk => ?_⟩
  · rw [List.length_drop]
    exact Nat.le_trans (Nat.sub_le ..) fits
  · rw [List.length_drop, h.remaining_eq]
  · rw [List.length_drop] at hk
    rw [Slots.view, Circle.forward_forward h.front_lt (by omega), List.getElem?_drop,
      ← h.view_eq (n + k) (by omega), Slots.view]

theorem Left.next (h : it.Left xs) :
    ∃ it', it.next = (xs.head?, it') ∧ it'.Left xs.tail := by
  have count := h.remaining_eq
  cases xs with
  | nil =>
      rw [List.length_nil] at count
      exact ⟨it, by rw [RingTraversal.next_eq, if_pos count]; rfl, h⟩
  | cons x xs =>
      have front := h.view_eq 0 (Nat.zero_lt_succ _)
      have rest := h.drop (n := 1) (Nat.succ_le_succ (Nat.zero_le _))
      rw [Slots.view, Circle.forward_zero h.front_lt] at front
      rw [Circle.forward_one h.front_lt] at rest
      rw [RingTraversal.next_eq, if_neg (by rw [count]; exact Nat.succ_ne_zero _), front]
      exact ⟨_, rfl, rest⟩

theorem Left.nextBack (h : it.Left xs) :
    ∃ it', it.nextBack = (xs.getLast?, it') ∧ it'.Left xs.dropLast := by
  have count := h.remaining_eq
  by_cases empty : xs = []
  · subst empty
    rw [List.length_nil] at count
    exact ⟨it, by rw [RingTraversal.nextBack_eq, if_pos count]; rfl, h⟩
  · have some : 0 < xs.length := List.length_pos_iff.2 empty
    have back := h.view_eq (xs.length - 1) (by omega)
    have rest := h.take (n := xs.length - 1) (Nat.sub_le ..)
    rw [← List.getLast?_eq_getElem?, ← count, Slots.view] at back
    rw [← List.dropLast_eq_take, ← count] at rest
    rw [RingTraversal.nextBack_eq, if_neg (by omega)]
    exact ⟨_, congrArg (·, _) back, rest⟩

theorem Left.nth (h : it.Left xs) (n : Nat) :
    ∃ it', it.nth n = (xs[n]?, it') ∧ it'.Left (xs.drop (n + 1)) := by
  have count := h.remaining_eq
  rw [RingTraversal.nth_eq]
  by_cases beyond : it.remaining ≤ n
  · have rest := h.drop (Nat.le_refl _)
    rw [if_pos beyond, List.getElem?_eq_none (by omega), List.drop_of_length_le (by omega)]
    rw [← count, Nat.sub_self, List.drop_of_length_le (by omega)] at rest
    exact ⟨_, rfl, rest⟩
  · obtain ⟨it', first, rest⟩ := (h.drop (n := n) (by omega)).next
    rw [List.head?_drop] at first
    rw [List.tail_drop] at rest
    rw [if_neg beyond]
    exact ⟨it', first, rest⟩

theorem mirrors : Mirrors (Left (α := α)) where
  remaining_eq _ _ h := h.remaining_eq
  next _ _ h := h.next
  nextBack _ _ h := h.nextBack
  nth n _ _ h := h.nth n
  nthBack n _ _ h := Traversal.skip_back (fun _ _ h => Left.nextBack h) h n

/-- A part that is too large is cut down to what there is. -/
theorem Left.splitAt (h : it.Left xs) (index : Nat) :
    (it.splitAt index).1.Left (xs.take index) ∧ (it.splitAt index).2.Left (xs.drop index) := by
  have inside : min index xs.length ≤ xs.length := Nat.min_le_right ..
  have first := h.take inside
  have second := h.drop inside
  rw [← List.take_eq_take_min] at first
  rw [← List.drop_eq_drop_min] at second
  rw [RingTraversal.splitAt_eq, h.remaining_eq]
  rw [h.remaining_eq] at second
  exact ⟨first, second⟩

end RingTraversal

/-- The parts of a list when it is divided along a tree: at each index the elements in front of it
and the others. -/
def SplitTree.shares : SplitTree → List α → List (List α)
  | .leaf, xs => [xs]
  | .node index left right, xs => left.shares (xs.take index) ++ right.shares (xs.drop index)

theorem SplitTree.flatten_shares (tree : SplitTree) (xs : List α) :
    (tree.shares xs).flatten = xs := by
  induction tree generalizing xs with
  | leaf => exact List.append_nil xs
  | node index left right ih_left ih_right =>
      rw [shares, List.flatten_append, ih_left, ih_right, List.take_append_drop]

namespace RingTraversal

/-- However a run is divided, its parts are runs of the parts of the list. -/
theorem Left.leaves {it : RingTraversal α} (h : it.Left xs) (tree : SplitTree) :
    List.Forall₂ Left (leaves tree it) (tree.shares xs) := by
  induction tree generalizing it xs with
  | leaf => exact .cons h .nil
  | node index left right ih_left ih_right =>
      obtain ⟨first, second⟩ := h.splitAt index
      rw [leaves_node]
      exact List.rel_append (ih_left first) (ih_right second)

theorem toList_leaves {its : List (RingTraversal α)} {parts : List (List α)}
    (h : List.Forall₂ Left its parts) :
    its.flatMap Traversal.toList = parts.flatten ∧
      (its.reverse.flatMap fun it => Traversal.toList (Reversed.mk it)) =
        parts.flatten.reverse := by
  induction h with
  | nil => exact ⟨rfl, rfl⟩
  | @cons it part its parts left _ ih =>
      have front : Traversal.toList it = part := mirrors.toList left
      have back : Traversal.toList (Reversed.mk it) = part.reverse :=
        mirrors.reversed.toList (show it.Left part.reverse.reverse by rwa [List.reverse_reverse])
      constructor
      · rw [List.flatMap_cons, front, ih.1, List.flatten_cons]
      · rw [List.reverse_cons, List.flatMap_append, ih.2, List.flatMap_singleton, back,
          List.flatten_cons, List.reverse_append]

end RingTraversal

theorem Deque.Holds.left_traversal {d : Deque α} (h : d.Holds xs) : d.traversal.Left xs := by
  rw [traversal_eq]
  exact {
    front_lt := h.head_lt
    length_le := h.length_le
    remaining_eq := h.length_eq
    view_eq := fun k hk => h.view_eq k (Nat.lt_trans hk h.length_lt) }

/-! ### Taking out -/

theorem Draining.mirrors :
    Mirrors fun (it : Draining α) xs => it.deque.Holds xs := by
  refine .of_steps (fun _ _ h => h.length_eq) ?_ ?_ (fun _ _ => rfl) fun _ _ => rfl
  · intro it xs h
    obtain ⟨d, same, rest⟩ := h.popFront
    exact ⟨⟨d⟩, congrArg (fun step => (step.1, Draining.mk step.2)) same, rest⟩
  · intro it xs h
    obtain ⟨d, same, rest⟩ := h.popBack
    exact ⟨⟨d⟩, congrArg (fun step => (step.1, Draining.mk step.2)) same, rest⟩

/-! ### Walking over the slots -/

namespace Leg

variable {leg : Leg}

/-- The slots that are left. -/
def slots (leg : Leg) : List Nat :=
  List.range' leg.start leg.length

theorem next_eq (leg : Leg) :
    leg.next.1 = leg.slots.head? ∧ leg.next.2.slots = leg.slots.tail := by
  rw [next, slots]
  by_cases more : leg.start < leg.stop
  · have length : leg.length = (leg.stop - (leg.start + 1)) + 1 := by
      rw [Leg.length]
      omega
    rw [if_pos more, length, List.range'_succ]
    exact ⟨rfl, rfl⟩
  · have length : leg.length = 0 := Nat.sub_eq_zero_of_le (Nat.le_of_not_lt more)
    rw [if_neg more, slots, length]
    exact ⟨rfl, rfl⟩

theorem nextBack_eq (leg : Leg) :
    leg.nextBack.1 = leg.slots.getLast? ∧ leg.nextBack.2.slots = leg.slots.dropLast := by
  rw [nextBack, slots]
  by_cases more : leg.start < leg.stop
  · have length : leg.length = (leg.stop - 1 - leg.start) + 1 := by
      rw [Leg.length]
      omega
    rw [if_pos more, length, List.range'_concat, List.getLast?_concat, List.dropLast_concat]
    refine ⟨congrArg some ?_, rfl⟩
    omega
  · have length : leg.length = 0 := Nat.sub_eq_zero_of_le (Nat.le_of_not_lt more)
    rw [if_neg more, slots, length]
    exact ⟨rfl, rfl⟩

end Leg

namespace SlotTraversal

/-- The slots that are left. -/
def slots (it : SlotTraversal) : List Nat :=
  it.first.slots ++ it.second.slots

/-- The second leg comes when the first is used up. -/
theorem next_eq (it : SlotTraversal) :
    it.next.1 = it.slots.head? ∧ it.next.2.slots = it.slots.tail := by
  obtain ⟨value, rest⟩ := it.first.next_eq
  rcases step : it.first.next with ⟨_ | p, first⟩
  · rw [step] at value
    have empty : it.first.slots = [] := List.head?_eq_none_iff.1 value.symm
    rw [next, step, slots, slots, empty]
    exact it.second.next_eq
  · rw [step] at value rest
    obtain ⟨behind, more⟩ := List.head?_eq_some_iff.1 value.symm
    rw [more, List.tail_cons] at rest
    rw [next, step, slots, slots, more, rest]
    exact ⟨rfl, rfl⟩

/-- From the back it is the other way round. -/
theorem nextBack_eq (it : SlotTraversal) :
    it.nextBack.1 = it.slots.getLast? ∧ it.nextBack.2.slots = it.slots.dropLast := by
  obtain ⟨value, rest⟩ := it.second.nextBack_eq
  rcases step : it.second.nextBack with ⟨_ | p, second⟩
  · rw [step] at value
    have empty : it.second.slots = [] := List.getLast?_eq_none_iff.1 value.symm
    rw [nextBack, step, slots, slots, empty, List.append_nil, List.append_nil]
    exact it.first.nextBack_eq
  · rw [step] at value rest
    obtain ⟨before, more⟩ := List.getLast?_eq_some_iff.1 value.symm
    rw [more, List.dropLast_concat] at rest
    rw [nextBack, step, slots, slots, more, rest, ← List.append_assoc, List.getLast?_concat,
      List.dropLast_concat]
    exact ⟨rfl, rfl⟩

theorem mirrors : Mirrors fun (it : SlotTraversal) slots => it.slots = slots := by
  refine .of_steps ?_ ?_ ?_ (fun _ _ => rfl) fun _ _ => rfl
  · rintro it _ rfl
    rw [slots, List.length_append, Leg.slots, Leg.slots, List.length_range', List.length_range']
    rfl
  · rintro it _ rfl
    exact ⟨it.next.2, Prod.ext it.next_eq.1 rfl, it.next_eq.2⟩
  · rintro it _ rfl
    exact ⟨it.nextBack.2, Prod.ext it.nextBack_eq.1 rfl, it.nextBack_eq.2⟩

end SlotTraversal

/-- Up to the end of the buffer the elements stand in slots that follow each other. -/
theorem Deque.map_position_range {d : Deque α} {n : Nat} (fits : d.head + n ≤ d.slotCount) :
    (List.range n).map d.position = List.range' d.head n := by
  rw [List.range'_eq_map_range]
  refine List.map_congr_left fun k hk => ?_
  rw [List.mem_range] at hk
  rw [position, Circle.forward_eq, if_pos (by omega)]

/-- The two legs are the slots of the elements in order. -/
theorem Deque.Holds.slots_slotTraversal {d : Deque α} (h : d.Holds xs) :
    d.slotTraversal.slots = (List.range d.length).map d.position := by
  have head := h.head_lt
  have tail := h.tail_lt
  rw [slotTraversal, Deque.length, Circle.steps_eq]
  by_cases straight : d.head ≤ d.tail
  · rw [if_pos straight, if_pos straight, map_position_range (by omega)]
    exact List.append_nil _
  · have split : d.tail + d.slotCount - d.head = (d.slotCount - d.head) + (d.tail - 0) := by omega
    rw [if_neg straight, if_neg straight, split, List.range_add, List.map_append,
      map_position_range (by omega), List.map_map]
    change List.range' d.head (d.slotCount - d.head) ++ List.range' 0 (d.tail - 0) = _
    rw [List.append_cancel_left_eq, List.range'_eq_map_range]
    refine List.map_congr_left fun k hk => ?_
    rw [List.mem_range] at hk
    rw [Function.comp_apply, position, Circle.forward_eq, if_neg (by omega)]
    omega

/-- What the slots hold, in the order in which they are walked over. -/
theorem Deque.Holds.map_slot {d : Deque α} (h : d.Holds xs) :
    ((List.range d.length).map d.position).map d.slot = xs.map some := by
  rw [h.length_eq, List.map_map]
  refine List.ext_getElem (by simp) fun k hk hk' => ?_
  rw [List.length_map] at hk'
  rw [List.getElem_map, List.getElem_range, List.getElem_map, Function.comp_apply,
    h.slot_position (Nat.lt_trans hk' h.length_lt), List.getElem?_eq_getElem hk']

/-! ### Writing -/

/-- What one does with an iterator that yields places: ask it, or write to a place that it has
yielded. The places are numbered in the order in which they came. -/
inductive WriteStep (α : Type u) where
  | ask (request : Traversal.Request)
  | write (number : Nat) (x : α)

/-- An iterator, the places that it has yielded so far, and what they are places of. -/
structure Writer (ι : Type u) (β : Type v) (τ : Type w) where
  it : ι
  places : List β
  store : τ

namespace Writer

open Traversal (answer)

variable {ι : Type w} {τ : Type x}

/-- One step, if `serve` replies to requests and `put` writes to a place. -/
def step (serve : ι → Traversal.Request → Traversal.Reply β × ι) (put : β → α → τ → τ) :
    WriteStep α → Writer ι β τ → Writer ι β τ
  | .ask request, w =>
    let (reply, it) := serve w.it request
    ⟨it, w.places ++ reply.yielded, w.store⟩
  | .write number x, w =>
    match w.places[number]? with
    | none => w
    | some place => { w with store := put place x w.store }

/-- A sequence of steps. -/
def run (serve : ι → Traversal.Request → Traversal.Reply β × ι) (put : β → α → τ → τ) :
    List (WriteStep α) → Writer ι β τ → Writer ι β τ
  | [], w => w
  | first :: steps, w => run serve put steps (step serve put first w)

/-- Writing to the slots of a deque. -/
def onDeque (steps : List (WriteStep α)) (d : Deque α) : Writer SlotTraversal Nat (Deque α) :=
  run Traversal.serve (fun p x d => (d.replaceSlot p x).2) steps ⟨d.slotTraversal, [], d⟩

/-- Writing to the indices of a list. -/
def onList (steps : List (WriteStep α)) (xs : List α) : Writer (List Nat) Nat (List α) :=
  run answer (fun i x xs => xs.set i x) steps ⟨List.range xs.length, [], xs⟩

/-- The slots in one run are those of the indices in the other, and the deque holds the list in the
layout of `d`. -/
structure Follows (d : Deque α) (w : Writer SlotTraversal Nat (Deque α))
    (v : Writer (List Nat) Nat (List α)) : Prop where
  left_eq : w.it.slots = v.it.map d.position
  places_eq : w.places = v.places.map d.position
  store : w.store.Holds v.store
  head_eq : w.store.head = d.head
  tail_eq : w.store.tail = d.tail
  slotCount_eq : w.store.slotCount = d.slotCount
  left_lt : ∀ i ∈ v.it, i < d.slotCount
  place_lt : ∀ i ∈ v.places, i < d.slotCount

variable {d : Deque α} {w : Writer SlotTraversal Nat (Deque α)} {v : Writer (List Nat) Nat (List α)}

theorem Follows.step (h : Follows d w v) (action : WriteStep α) :
    Follows d (step Traversal.serve (fun p x d => (d.replaceSlot p x).2) action w)
      (step answer (fun i x xs => xs.set i x) action v) := by
  cases action with
  | ask request =>
      obtain ⟨it', same, left⟩ := SlotTraversal.mirrors.serve h.left_eq request
      rw [Traversal.answer_map] at same left
      rw [Writer.step, Writer.step, same]
      refine ⟨left, ?_, h.store, h.head_eq, h.tail_eq, h.slotCount_eq, ?_, ?_⟩
      · dsimp only
        rw [h.places_eq, Traversal.Reply.yielded_map, List.map_append]
      · exact fun i mem => h.left_lt i (Traversal.mem_of_answer.2 mem)
      · intro i mem
        rcases List.mem_append.1 mem with old | new
        · exact h.place_lt i old
        · exact h.left_lt i (Traversal.mem_of_answer.1 new)
  | write number x =>
      have same : w.places[number]? = v.places[number]?.map d.position := by
        rw [h.places_eq, List.getElem?_map]
      rw [Writer.step, Writer.step, same]
      cases place : v.places[number]? with
      | none => exact h
      | some i =>
          have inside : i < w.store.slotCount := by
            rw [h.slotCount_eq]
            exact h.place_lt i (List.mem_of_getElem? place)
          have position := Deque.position_congr h.head_eq h.slotCount_eq
          obtain ⟨d', written, holds⟩ := h.store.replaceSlot (x := x) inside
          obtain ⟨head, tail, size⟩ := w.store.layout_replaceSlot (d.position i) x
          rw [position] at written
          refine ⟨h.left_eq, h.places_eq, ?_, head.trans h.head_eq, tail.trans h.tail_eq,
            size.trans h.slotCount_eq, h.left_lt, h.place_lt⟩
          dsimp only [Option.map_some]
          rw [written]
          exact holds

theorem Follows.run (h : Follows d w v) (steps : List (WriteStep α)) :
    Follows d (run Traversal.serve (fun p x d => (d.replaceSlot p x).2) steps w)
      (run answer (fun i x xs => xs.set i x) steps v) := by
  induction steps generalizing w v with
  | nil => exact h
  | cons first steps ih => exact ih (h.step first)

theorem follows_start (h : d.Holds xs) :
    Follows d ⟨d.slotTraversal, [], d⟩ ⟨List.range xs.length, [], xs⟩ where
  left_eq := by rw [h.slots_slotTraversal, h.length_eq]
  places_eq := rfl
  store := h
  head_eq := rfl
  tail_eq := rfl
  slotCount_eq := rfl
  left_lt i mem := Nat.lt_trans (List.mem_range.1 mem) h.length_lt
  place_lt := nofun

/-- A step writes only to a place that has been yielded, and those are remembered. -/
theorem step_untouched {i : Nat} {action : WriteStep α} {v : Writer (List Nat) Nat (List α)}
    (h : i ∉ (step answer (fun i x xs => xs.set i x) action v).places) :
    i ∉ v.places ∧
      (step answer (fun i x xs => xs.set i x) action v).store[i]? = v.store[i]? := by
  cases action with
  | ask request => exact ⟨fun mem => h (List.mem_append_left _ mem), rfl⟩
  | write number x =>
      rw [step] at h ⊢
      cases place : v.places[number]? with
      | none =>
          rw [place] at h
          exact ⟨h, rfl⟩
      | some j =>
          rw [place] at h
          have other : j ≠ i := fun same => h (same ▸ List.mem_of_getElem? place)
          exact ⟨h, List.getElem?_set_ne other⟩

/-- What has not been yielded has not been written to. -/
theorem run_untouched {i : Nat} {steps : List (WriteStep α)} {v : Writer (List Nat) Nat (List α)}
    (h : i ∉ (run answer (fun i x xs => xs.set i x) steps v).places) :
    i ∉ v.places ∧
      (run answer (fun i x xs => xs.set i x) steps v).store[i]? = v.store[i]? := by
  induction steps generalizing v with
  | nil => exact ⟨h, rfl⟩
  | cons first steps ih =>
      obtain ⟨apart, same⟩ := ih h
      obtain ⟨apart', same'⟩ := step_untouched apart
      exact ⟨apart', same.trans same'⟩

end Writer

/-- The deque is in order after any sequence of steps, in the old layout. Its elements are those
that the same steps leave of the list, where the slots that were yielded are indices. No other
element has changed. -/
structure Written (steps : List (WriteStep α)) (d : Deque α) : Prop where
  wellFormed : (Writer.onDeque steps d).store.WellFormed
  toList_eq : (Writer.onDeque steps d).store.toList = (Writer.onList steps d.toList).store
  places_eq : (Writer.onDeque steps d).places =
    (Writer.onList steps d.toList).places.map d.position
  head_eq : (Writer.onDeque steps d).store.head = d.head
  tail_eq : (Writer.onDeque steps d).store.tail = d.tail
  slotCount_eq : (Writer.onDeque steps d).store.slotCount = d.slotCount
  untouched : ∀ i, i ∉ (Writer.onList steps d.toList).places →
    (Writer.onDeque steps d).store.toList[i]? = d.toList[i]?

theorem Deque.WellFormed.written {d : Deque α} (h : d.WellFormed) (steps : List (WriteStep α)) :
    Written steps d := by
  have follows := (Writer.follows_start h.holds).run steps
  refine ⟨follows.store.wellFormed, follows.store.toList_eq, follows.places_eq, follows.head_eq,
    follows.tail_eq, follows.slotCount_eq, fun i apart => ?_⟩
  rw [Writer.onDeque, follows.store.toList_eq]
  exact (Writer.run_untouched apart).2

open Traversal (serveAll answers StaysExhausted)

/-- Wherever the elements stand in the buffer, all iterators reply to any sequence of requests from
both ends, those for the number of elements left included, as the list of the elements does, the
writing one with the slots that hold them; and none goes on after its end. What is written through
an iterator reaches the elements that it has yielded. The parts of any division are iterators of
neighbouring parts of the list: where it is split, those of the elements in front of the index, as
far as there are so many, and of the others. -/
theorem Deque.WellFormed.iterators_agree {d : Deque α} (h : d.WellFormed) :
    (∀ requests : List Traversal.Request,
      serveAll d.traversal requests = answers d.toList requests ∧
      serveAll d.descending requests = answers d.toList.reverse requests ∧
      serveAll d.draining requests = answers d.toList requests ∧
      (serveAll d.slotTraversal requests).map (Traversal.Reply.map d.slot) =
        (answers d.toList requests).map (Traversal.Reply.map some)) ∧
    (StaysExhausted d.traversal ∧ StaysExhausted d.descending ∧ StaysExhausted d.draining ∧
      StaysExhausted d.slotTraversal) ∧
    (∀ steps : List (WriteStep α), Written steps d) ∧
    ∀ tree : SplitTree,
      (tree.shares d.toList).flatten = d.toList ∧
      List.Forall₂ (fun it part => ∀ requests, serveAll it requests = answers part requests)
        (RingTraversal.leaves tree d.traversal) (tree.shares d.toList) ∧
      (RingTraversal.leaves tree d.traversal).flatMap Traversal.toList = d.toList ∧
      ((RingTraversal.leaves tree d.traversal).reverse.flatMap fun it =>
        Traversal.toList (Reversed.mk it)) = d.toList.reverse := by
  have reading := h.holds.left_traversal
  have backward : d.traversal.Left d.toList.reverse.reverse := by rwa [List.reverse_reverse]
  have slots := h.holds.slots_slotTraversal
  refine ⟨fun requests => ⟨RingTraversal.mirrors.serveAll reading requests,
    RingTraversal.mirrors.reversed.serveAll backward requests,
    Draining.mirrors.serveAll h.holds requests, ?_⟩,
    ⟨RingTraversal.mirrors.staysExhausted reading,
      RingTraversal.mirrors.reversed.staysExhausted backward,
      Draining.mirrors.staysExhausted h.holds,
      SlotTraversal.mirrors.staysExhausted slots⟩, h.written, fun tree => ?_⟩
  · rw [SlotTraversal.mirrors.serveAll slots, ← Traversal.answers_map, h.holds.map_slot,
      Traversal.answers_map]
  · have left := reading.leaves tree
    have whole := tree.flatten_shares d.toList
    obtain ⟨forward, back⟩ := RingTraversal.toList_leaves left
    rw [whole] at forward back
    exact ⟨whole, left.imp fun _ _ left => RingTraversal.mirrors.serveAll left, forward, back⟩

/-- Elements on both sides of the end of the buffer. -/
theorem Deque.WellFormed.iterators_agree_wrapped :
    let d : Deque Nat := ⟨#[some 3, some 4, none, some 1, some 2], 3, 2⟩
    let requests : List Traversal.Request := [.back, .nth 1, .size, .next, .next]
    let replies : List (Traversal.Reply Nat) :=
      [.value (some 4), .value (some 2), .count 1, .value (some 3), .value none]
    let steps : List (WriteStep Nat) :=
      [.ask .back, .ask (.nth 1), .write 0 40, .ask .next, .write 2 30, .write 1 20, .write 2 31]
    let tree : SplitTree := .node 3 (.node 1 .leaf .leaf) (.node 7 .leaf .leaf)
    d.WellFormed ∧
      serveAll d.traversal requests = replies ∧
      serveAll d.draining requests = replies ∧
      (serveAll d.slotTraversal requests).map (Traversal.Reply.map d.slot) =
        replies.map (Traversal.Reply.map some) ∧
      StaysExhausted d.slotTraversal ∧
      (Writer.onDeque steps d).store.toList = [1, 20, 31, 40] ∧
      (RingTraversal.leaves tree d.traversal).flatMap Traversal.toList = [1, 2, 3, 4] ∧
      ((RingTraversal.leaves tree d.traversal).reverse.flatMap fun it =>
        Traversal.toList (Reversed.mk it)) = [4, 3, 2, 1] := by
  intro d requests replies steps tree
  have ordered : d.WellFormed := isWellFormed_iff.1 (by decide)
  obtain ⟨agree, ⟨-, -, -, exhausted⟩, written, divided⟩ := iterators_agree ordered
  obtain ⟨read, -, taken, slots⟩ := agree requests
  obtain ⟨-, -, forward, back⟩ := divided tree
  have list : d.toList = [1, 2, 3, 4] := by decide
  have expected : answers d.toList requests = replies := by decide
  rw [expected] at read taken slots
  exact ⟨ordered, read, taken, slots, exhausted, (written steps).toList_eq.trans (by decide),
    forward.trans list, back.trans (congrArg List.reverse list)⟩

end RingDeque
