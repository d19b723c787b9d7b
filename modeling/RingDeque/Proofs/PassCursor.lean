import RingDeque.Cursor.OneWay
import RingDeque.Proofs.Removal

/-!
# A one-way cursor passes every element once

`Pass` is what a cursor does to the elements in the order in which it visits them, which is the
order of the deque or its reverse. It has passed some of them, perhaps stands on the one that it
returned last, and has others ahead. Removing the element it stands on shortens what it has passed
and leaves alone what is ahead.

The cursor knows a slot and a number. A removal slides the elements on one side of the gap, and for
two of the four combinations of side and direction these are the ones ahead, so that the slot
changes.
-/

namespace RingDeque

variable {σ : Type u} {α : Type v}

namespace Direction

/-- The elements in the order in which they are visited. -/
def arrange : Direction → List α → List α
  | .forward, xs => xs
  | .backward, xs => xs.reverse

/-- The index of the element that is visited after `k` others, when there are `length`. -/
def index (direction : Direction) (length k : Nat) : Nat :=
  match direction with
  | .forward => k
  | .backward => length - 1 - k

variable {direction : Direction} {xs : List α} {k length : Nat}

@[simp] theorem length_arrange (direction : Direction) (xs : List α) :
    (direction.arrange xs).length = xs.length := by
  cases direction with
  | forward => rfl
  | backward => exact List.length_reverse

@[simp] theorem arrange_arrange (direction : Direction) (xs : List α) :
    direction.arrange (direction.arrange xs) = xs := by
  cases direction with
  | forward => rfl
  | backward => exact List.reverse_reverse xs

theorem index_lt (direction : Direction) (hk : k < length) : direction.index length k < length := by
  cases direction with
  | forward => exact hk
  | backward =>
      rw [index]
      omega

theorem getElem?_arrange (direction : Direction) (hk : k < xs.length) :
    (direction.arrange xs)[direction.index xs.length k]? = xs[k]? := by
  cases direction with
  | forward => rfl
  | backward =>
      rw [arrange, index, List.getElem?_reverse (by omega)]
      congr 1
      omega

theorem eraseIdx_arrange (direction : Direction) (hk : k < xs.length) :
    (direction.arrange xs).eraseIdx (direction.index xs.length k) =
      direction.arrange (xs.eraseIdx k) := by
  cases direction with
  | forward => rfl
  | backward =>
      rw [arrange, arrange, index]
      apply List.ext_getElem?
      intro j
      have erased : (xs.eraseIdx k).length = xs.length - 1 := List.length_eraseIdx_of_lt hk
      by_cases inside : j < xs.length - 1
      · rw [List.getElem?_reverse (by omega), List.getElem?_eraseIdx, List.getElem?_eraseIdx,
          erased]
        by_cases before : j < xs.length - 1 - k
        · rw [if_pos before, if_neg (by omega), List.getElem?_reverse (by omega)]
          congr 1
          omega
        · rw [if_neg before, if_pos (by omega), List.getElem?_reverse (by omega)]
          congr 1
          omega
      · have last : xs.length - 1 - k < xs.reverse.length := by
          rw [List.length_reverse]
          omega
        rw [List.getElem?_eq_none (by
            rw [List.length_eraseIdx_of_lt last, List.length_reverse]
            omega),
          List.getElem?_eq_none (by
            rw [List.length_reverse, erased]
            omega)]

end Direction

namespace OneWayCursor

/-- A call on a cursor. A callback comes with the state it starts in. -/
inductive Call (σ : Type u) (α : Type v) where
  | next
  | remove
  | forEachRemaining (action : Callback σ α Unit) (s : σ)
  | hasNext
  | remaining

/-- What a call returns. -/
inductive Reply (σ : Type u) (α : Type v) where
  | element (result : Except Error α)
  | visited (result : Except Fault (Except Error Unit)) (s : σ)
  | flag (answer : Bool)
  | count (n : Nat)

/-- The error that a call returned. -/
def Reply.error? : Reply σ α → Option Error
  | .element (.error e) | .visited (.ok (.error e)) _ => some e
  | _ => none

/-- Make the call on a cursor and its deque. -/
def call : Call σ α → OneWayCursor → Deque α → Reply σ α × OneWayCursor × Deque α
  | .next, c, d => let (result, c) := c.next d; (.element result, c, d)
  | .remove, c, d => let (result, c, d) := c.remove d; (.element result, c, d)
  | .forEachRemaining action s, c, d =>
    let ((result, c), s) := c.forEachRemaining action d s; (.visited result s, c, d)
  | .hasNext, c, d => (.flag c.hasNext, c, d)
  | .remaining, c, d => (.count c.remaining, c, d)

/-- Whether the callback of a call never fails. -/
def Call.Completes : Call σ α → Prop
  | .forEachRemaining action _ => ∀ x s, ∃ s', action x s = (.ok (), s')
  | _ => True

end OneWayCursor

open OneWayCursor (Call Reply)

/-- A pass over the elements, in the order in which they are visited. -/
structure Pass (α : Type u) where
  /-- The elements returned earlier, and whether each is still there. -/
  earlier : List (α × Bool)
  /-- The element returned last, unless it was removed. -/
  current : Option α
  /-- The elements that are yet to be returned. -/
  ahead : List α
  /-- The elements that will not be returned, because a callback failed before it had seen them
  all. -/
  skipped : List α

namespace Pass

/-- The elements that were returned. -/
def returned (p : Pass α) : List α :=
  p.earlier.map (·.1) ++ p.current.toList

/-- The elements returned earlier that are still there. -/
def kept (p : Pass α) : List α :=
  (p.earlier.filter (·.2)).map (·.1)

/-- All elements that are still there. -/
def present (p : Pass α) : List α :=
  p.kept ++ p.current.toList ++ p.ahead ++ p.skipped

/-- How many elements that are still there were returned. -/
def passed (p : Pass α) : Nat :=
  p.kept.length + p.current.toList.length

/-- The pass after the next element was returned, if there is one. -/
def advance (p : Pass α) : Pass α :=
  match p.ahead with
  | [] => p
  | x :: rest => ⟨p.earlier ++ p.current.toList.map (·, true), some x, rest, p.skipped⟩

/-- The pass after `n` more elements were returned. -/
def advanceBy : Nat → Pass α → Pass α
  | 0, p => p
  | n + 1, p => advanceBy n p.advance

/-- The pass after the element returned last was removed. -/
def remove (x : α) (p : Pass α) : Pass α :=
  { p with earlier := p.earlier ++ [(x, false)], current := none }

/-- The pass when nothing more will be returned. -/
def stop (p : Pass α) : Pass α :=
  { p with ahead := [], skipped := p.ahead ++ p.skipped }

/-- What the call returns, and the pass afterwards. -/
def call : Call σ α → Pass α → Reply σ α × Pass α
  | .next, p =>
    match p.ahead with
    | [] => (.element (.error .noSuchElement), p)
    | x :: _ => (.element (.ok x), p.advance)
  | .remove, p =>
    match p.current with
    | none => (.element (.error .noCurrentElement), p)
    | some x => (.element (.ok x), p.remove x)
  | .forEachRemaining action s, p =>
    let (seen, s) := traverse action p.ahead s
    (.visited (seen.complete.map fun _ => .ok ()) s, (p.advanceBy seen.values.length).stop)
  | .hasNext, p => (.flag (!p.ahead.isEmpty), p)
  | .remaining, p => (.count p.ahead.length, p)

/-- The errors that a call meets, each in one situation. -/
def Fails (p : Pass α) : Call σ α → Error → Prop
  | .next, e => e = .noSuchElement ∧ p.ahead = []
  | .remove, e => e = .noCurrentElement ∧ p.current = none
  | _, _ => False

/-- The cursor marks the element that it returned last. -/
structure Marks (p : Pass α) (c : OneWayCursor) (d : Deque α) : Prop where
  holds : d.Holds (c.direction.arrange p.present)
  last_eq : c.last =
    p.current.map fun _ => d.position (c.direction.index p.present.length p.kept.length)

/-- The slot of the next element, in a deque whose elements are those of the pass. -/
def slotAhead (p : Pass α) (direction : Direction) (d : Deque α) : Nat :=
  d.position (direction.index p.present.length p.passed)

/-- Cursor and deque are in the middle of the pass. -/
structure On (p : Pass α) (c : OneWayCursor) (d : Deque α) : Prop extends p.Marks c d where
  remaining_eq : c.remaining = p.ahead.length
  position_eq : p.ahead ≠ [] → c.position = p.slotAhead c.direction d
  skipped_eq : p.ahead ≠ [] → p.skipped = []

variable {p : Pass α} {c : OneWayCursor} {d : Deque α} {x : α} {xs : List α}

/-! ### The pass -/

theorem length_present (p : Pass α) :
    p.present.length = p.passed + p.ahead.length + p.skipped.length := by
  simp only [present, passed, List.length_append]

theorem kept_advance (hp : p.ahead = x :: xs) :
    p.advance.kept = p.kept ++ p.current.toList := by
  rw [advance, hp]
  cases p.current <;> simp [kept]

theorem present_advance (p : Pass α) : p.advance.present = p.present := by
  cases hp : p.ahead with
  | nil => rw [advance, hp]
  | cons x xs =>
      rw [present, kept_advance hp, present, hp]
      simp [advance, hp]

theorem passed_advance (hp : p.ahead = x :: xs) : p.advance.passed = p.passed + 1 := by
  rw [passed, kept_advance hp, List.length_append, passed]
  simp [advance, hp]

theorem ahead_advance (hp : p.ahead = x :: xs) : p.advance.ahead = xs := by
  rw [advance, hp]

theorem current_advance (hp : p.ahead = x :: xs) : p.advance.current = some x := by
  rw [advance, hp]

/-- The element that is visited next. -/
theorem getElem?_present (hp : p.ahead = x :: xs) : p.present[p.passed]? = some x := by
  rw [present, passed, ← List.length_append, hp, List.append_assoc, List.append_assoc,
    ← List.append_assoc, List.getElem?_append_right (Nat.le_refl _), Nat.sub_self]
  rfl

/-- Where the element stands that was returned last. -/
theorem eraseIdx_present (hp : p.current = some x) :
    p.present.eraseIdx p.kept.length = (p.remove x).present := by
  simp only [present, kept, remove, hp, Option.toList_some, Option.toList_none, List.filter_append,
    List.map_append, List.append_assoc]
  rw [List.eraseIdx_append_of_length_le (Nat.le_refl _), Nat.sub_self]
  rfl

@[simp] theorem kept_remove (x : α) (p : Pass α) : (p.remove x).kept = p.kept := by
  simp [kept, remove]

theorem passed_remove (x : α) (p : Pass α) : (p.remove x).passed = p.kept.length := by
  rw [passed, kept_remove]
  rfl

/-- All elements of the pass, in the order in which they are visited. -/
def whole (p : Pass α) : List α :=
  p.returned ++ p.ahead ++ p.skipped

theorem whole_advance (p : Pass α) : p.advance.whole = p.whole := by
  cases hp : p.ahead with
  | nil => rw [advance, hp]
  | cons x xs =>
      rw [whole, whole, returned, returned, advance, hp]
      cases p.current <;> simp

theorem whole_advanceBy (n : Nat) (p : Pass α) : (p.advanceBy n).whole = p.whole := by
  induction n generalizing p with
  | zero => rfl
  | succ n ih => rw [advanceBy, ih, whole_advance]

theorem whole_stop (p : Pass α) : p.stop.whole = p.whole := by
  simp [whole, stop, returned]

/-- No call loses an element or returns one twice. -/
theorem whole_call (call : Call σ α) (p : Pass α) : (p.call call).2.whole = p.whole := by
  cases call with
  | next =>
      rw [Pass.call]
      split
      · rfl
      · exact whole_advance p
  | remove =>
      rw [Pass.call]
      cases hp : p.current with
      | none => rfl
      | some x => simp [whole, returned, remove, hp]
  | forEachRemaining action s =>
      simp only [Pass.call]
      rw [whole_stop, whole_advanceBy]
  | _ => rfl

theorem skipped_advanceBy (n : Nat) (p : Pass α) : (p.advanceBy n).skipped = p.skipped := by
  induction n generalizing p with
  | zero => rfl
  | succ n ih =>
      rw [advanceBy, ih, advance]
      split <;> rfl

theorem ahead_advanceBy (n : Nat) (p : Pass α) : (p.advanceBy n).ahead = p.ahead.drop n := by
  induction n generalizing p with
  | zero => rfl
  | succ n ih =>
      rw [advanceBy, ih]
      cases hp : p.ahead with
      | nil =>
          have same : p.advance = p := by rw [advance, hp]
          rw [same, hp, List.drop_nil, List.drop_nil]
      | cons x xs => rw [ahead_advance hp, List.drop_succ_cons]

theorem present_stop (p : Pass α) : p.stop.present = p.present := by
  simp [present, stop, kept]

theorem fault_traverse {action : Callback σ α Unit}
    (completes : ∀ x s, ∃ s', action x s = (.ok (), s')) (xs : List α) (s : σ) :
    (traverse action xs s).1.fault = none := by
  induction xs generalizing s with
  | nil => rfl
  | cons x xs ih =>
      obtain ⟨s', done⟩ := completes x s
      rw [traverse_cons, done]
      exact ih s'

/-- Only a callback that fails makes the pass skip elements. -/
theorem skipped_call {call : Call σ α} (completes : call.Completes) (hp : p.skipped = []) :
    (p.call call).2.skipped = [] := by
  cases call with
  | next =>
      rw [Pass.call]
      split
      · exact hp
      · exact (skipped_advanceBy 1 p).trans hp
  | remove =>
      rw [Pass.call]
      split <;> exact hp
  | forEachRemaining action s =>
      have all := (length_traverse action p.ahead s).2 (fault_traverse completes p.ahead s)
      simp only [Pass.call, stop, skipped_advanceBy, ahead_advanceBy, all, List.drop_length, hp,
        List.append_nil]
  | _ => exact hp

/-! ### The cursor -/

theorem Marks.length_lt (h : p.Marks c d) : p.present.length < d.slotCount := by
  have length := h.holds.length_lt
  rwa [Direction.length_arrange] at length

theorem Marks.slot_slotAhead (h : p.Marks c d) (hp : p.ahead = x :: xs) :
    d.slot (p.slotAhead c.direction d) = some x := by
  have inside : p.passed < p.present.length := by
    rw [length_present, hp, List.length_cons]
    omega
  have bound := c.direction.index_lt inside
  rw [slotAhead, h.holds.slot_position (Nat.lt_trans bound h.length_lt),
    c.direction.getElem?_arrange inside, getElem?_present hp]

theorem slotAhead_advance (hd : d.head < d.slotCount) (hl : p.present.length < d.slotCount)
    {y : α} (hp : p.ahead = x :: y :: xs) (direction : Direction) :
    direction.step (p.slotAhead direction d) d.slotCount = p.advance.slotAhead direction d := by
  have length := length_present p
  rw [hp, List.length_cons, List.length_cons] at length
  rw [slotAhead, slotAhead, present_advance, passed_advance hp]
  cases direction with
  | forward => exact Circle.next_forward hd (show p.passed < d.slotCount by omega)
  | backward =>
      have before := Circle.prev_forward_succ hd
        (show p.present.length - 1 - (p.passed + 1) < d.slotCount by omega)
      rw [show p.present.length - 1 - (p.passed + 1) + 1 = p.present.length - 1 - p.passed by
        omega] at before
      exact before

/-- The cursor marks an element when it returns it. -/
theorem Marks.advance (h : p.Marks c d) (hp : p.ahead = x :: xs) :
    p.advance.Marks { c with last := some (p.slotAhead c.direction d) } d where
  holds := by
    rw [present_advance]
    exact h.holds
  last_eq := by
    rw [current_advance hp, kept_advance hp, present_advance, List.length_append]
    rfl

theorem follow_with (c : OneWayCursor) (closed : Closed) (m : Nat) :
    c.follow closed m = { c with position := (c.follow closed m).position } := by
  rw [OneWayCursor.follow_eq]
  obtain ⟨direction, position, remaining, last⟩ := c
  cases direction <;> cases closed <;> rfl

/-- The elements ahead of the gap are one place nearer, wherever their slots are now. -/
theorem position_follow {d' : Deque α} {closed : Closed} (moved : closed.Moves d d')
    (hd : d.head < d.slotCount) {n k : Nat} (hk : k + 1 < n) (hn : n < d.slotCount)
    (hc : c.position = d.position (c.direction.index n (k + 1))) :
    (c.follow closed d'.slotCount).position = d'.position (c.direction.index (n - 1) k) := by
  obtain ⟨direction, position, remaining, last⟩ := c
  dsimp only at hc
  rw [OneWayCursor.follow_eq, moved.1, hc]
  cases direction with
  | forward =>
      cases closed with
      | tail =>
          rw [moved.position_tail]
          exact Circle.prev_forward_succ hd (show k < d.slotCount by omega)
      | head => exact (moved.position_head hd (show k < d.slotCount by omega)).symm
  | backward =>
      have same : n - 1 - 1 - k = n - 1 - (k + 1) := by omega
      cases closed with
      | tail =>
          rw [moved.position_tail, Direction.index, Direction.index, same]
      | head =>
          rw [Direction.index, Direction.index, same, moved.position_head hd (by omega)]
          exact Circle.next_forward hd (show n - 1 - (k + 1) < d.slotCount by omega)

/-- The element returned last goes, and those on one side of it move. -/
theorem On.remove (h : p.On c d) (hp : p.current = some x) :
    ∃ c' d', c.remove d = (.ok x, c', d') ∧ c'.direction = c.direction ∧
      (p.remove x).On c' d' := by
  have length := h.length_lt
  have bounds := length_present p
  have passed_eq : p.passed = p.kept.length + 1 := by simp [passed, hp]
  have inside : p.kept.length < p.present.length := by omega
  have within : c.direction.index p.present.length p.kept.length <
      (c.direction.arrange p.present).length := by
    rw [Direction.length_arrange]
    exact c.direction.index_lt inside
  obtain ⟨closed, d', hd', holds, moved⟩ := h.holds.delete within
  rw [c.direction.eraseIdx_arrange inside, eraseIdx_present hp] at holds
  have removed := c.direction.getElem?_arrange inside
  have here : p.present[p.kept.length]? = some x := by
    rw [present, hp, List.append_assoc, List.append_assoc,
      List.getElem?_append_right (Nat.le_refl _), Nat.sub_self]
    rfl
  rw [here, List.getElem?_eq_getElem within, Option.some.injEq] at removed
  have shorter : (p.remove x).present.length = p.present.length - 1 := by
    rw [← eraseIdx_present hp, List.length_eraseIdx_of_lt inside]
  rw [OneWayCursor.remove_eq, h.last_eq, hp, Option.map_some]
  simp only [hd', removed]
  have followed := follow_with { c with last := none } closed d'.slotCount
  refine ⟨_, d', rfl, by rw [followed], ⟨by rwa [followed], by rw [followed]; rfl⟩,
    by rw [followed]; exact h.remaining_eq, fun more => ?_, h.skipped_eq⟩
  have position := h.position_eq more
  rw [slotAhead, passed_eq] at position
  have ahead := List.length_pos_iff.2 more
  change 0 < p.ahead.length at ahead
  rw [slotAhead, passed_remove, shorter, followed]
  exact position_follow moved h.holds.head_lt (by omega) length position

theorem On.next (h : p.On c d) (hp : p.ahead = x :: xs) :
    ∃ c', c.next d = (.ok x, c') ∧ c'.direction = c.direction ∧ p.advance.On c' d := by
  have more : p.ahead ≠ [] := by simp [hp]
  have position := h.position_eq more
  have remaining := h.remaining_eq
  rw [hp, List.length_cons] at remaining
  rw [OneWayCursor.next_eq, if_neg (by omega), position, h.slot_slotAhead hp]
  have marked := h.advance hp
  refine ⟨_, rfl, rfl, ⟨marked.holds, marked.last_eq⟩, ?_, ?_, ?_⟩
  · rw [ahead_advance hp]
    simp only
    omega
  · rw [ahead_advance hp]
    intro rest
    obtain ⟨y, ys, rfl⟩ := List.exists_cons_of_ne_nil rest
    exact slotAhead_advance h.holds.head_lt h.length_lt hp c.direction
  · intro _
    rw [advance, hp]
    exact h.skipped_eq more

/-- The callback sees the elements ahead in order, and the cursor marks the last one that it has
dealt with. -/
theorem Marks.visit (h : p.Marks c d) (action : Callback σ α Unit) (s : σ) {q : Nat}
    (hq : p.ahead ≠ [] → q = p.slotAhead c.direction d) :
    ∃ c', OneWayCursor.visit action d p.ahead.length q c s =
        (((traverse action p.ahead s).1.complete.map fun _ => (), c'),
          (traverse action p.ahead s).2) ∧
      c'.direction = c.direction ∧ c'.remaining = c.remaining ∧
      (p.advanceBy (traverse action p.ahead s).1.values.length).Marks c' d := by
  -- The slot `q` runs ahead of the cursor, whose own position is set only at the end.
  generalize hp : p.ahead = xs at hq
  induction xs generalizing p c s q with
  | nil => exact ⟨{ c with position := q }, rfl, rfl, rfl, h.holds, h.last_eq⟩
  | cons x xs ih =>
      obtain rfl := hq (List.cons_ne_nil x xs)
      rw [List.length_cons, OneWayCursor.visit_succ, h.slot_slotAhead hp, traverse_cons]
      dsimp only
      rcases action x s with ⟨_ | _, s'⟩
      · exact ⟨c, rfl, rfl, rfl, h⟩
      · obtain ⟨c', rest, direction, remaining, marks⟩ := ih (h.advance hp) s'
          (q := c.direction.step (p.slotAhead c.direction d) d.slotCount) (ahead_advance hp)
          (fun more => by
            obtain ⟨y, ys, rfl⟩ := List.exists_cons_of_ne_nil more
            exact slotAhead_advance h.holds.head_lt h.length_lt hp c.direction)
        refine ⟨c', ?_, direction, remaining, marks⟩
        simp only [rest]
        rcases traverse action xs s' with ⟨⟨seen, _ | fault⟩, s''⟩
        · rfl
        · rfl

/-- The number of slots ahead of the cursor is the number of elements ahead. -/
theorem On.ahead?_eq (h : p.On c d) (hp : p.ahead ≠ []) : c.ahead? d = some c.remaining := by
  have bounds := length_present p
  have more := List.length_pos_iff.2 hp
  rw [h.skipped_eq hp, List.length_nil] at bounds
  have place {k} (hk : k ≤ p.present.length) := h.holds.steps_position (k := k)
    (by rwa [Direction.length_arrange])
  rw [Direction.length_arrange] at place
  rw [h.remaining_eq, OneWayCursor.ahead?_eq, h.position_eq hp, slotAhead]
  cases c.direction with
  | forward =>
      have inside : d.position p.passed < d.slotCount :=
        Circle.forward_lt h.holds.head_lt (by have := h.length_lt; omega)
      change Circle.steps? (d.position p.passed) d.tail d.slotCount = some p.ahead.length
      rw [Circle.steps?_eq_some (Nat.le_of_lt inside), (place (by omega)).2]
      congr 1
      omega
  | backward =>
      change (Circle.steps? d.head (d.position (p.present.length - 1 - p.passed)) d.slotCount).map
        (· + 1) = some p.ahead.length
      rw [Circle.steps?_eq_some (Nat.le_of_lt h.holds.head_lt), (place (by omega)).1,
        Option.map_some]
      congr 1
      omega

/-- A cursor with nothing left to visit need not know where it stands. -/
theorem Marks.stop (h : p.Marks c d) (hc : c.remaining = 0) : p.stop.On c d where
  holds := by
    rw [present_stop]
    exact h.holds
  last_eq := by
    rw [present_stop]
    exact h.last_eq
  remaining_eq := hc
  position_eq more := absurd rfl more
  skipped_eq more := absurd rfl more

theorem On.forEachRemaining (h : p.On c d) (action : Callback σ α Unit) (s : σ) :
    ∃ c', c.forEachRemaining action d s =
        (((traverse action p.ahead s).1.complete.map fun _ => .ok (), c'),
          (traverse action p.ahead s).2) ∧
      c'.direction = c.direction ∧
      (p.advanceBy (traverse action p.ahead s).1.values.length).stop.On c' d := by
  have stopped : p.Marks { c with remaining := 0 } d := ⟨h.holds, h.last_eq⟩
  have remaining := h.remaining_eq
  rw [OneWayCursor.forEachRemaining_eq]
  by_cases more : p.ahead = []
  · rw [more, List.length_nil] at remaining
    rw [if_pos remaining, more]
    exact ⟨_, rfl, rfl, stopped.stop rfl⟩
  · obtain ⟨x, xs, hp⟩ := List.exists_cons_of_ne_nil more
    have position := h.position_eq more
    obtain ⟨c', visited, direction, none_left, marks⟩ := stopped.visit action s
      (q := c.position) fun _ => position
    rw [if_neg (by rw [remaining, hp]; simp), h.ahead?_eq more, position, h.slot_slotAhead hp,
      ← position, remaining, visited]
    refine ⟨c', ?_, direction, marks.stop none_left⟩
    simp only [Option.isNone_some, bne_self_eq_false, Bool.or_self, Bool.false_eq_true, if_false]
    cases (traverse action p.ahead s).1.complete <;> rfl

/-- One call: the cursor answers as the pass does and is still in the middle of it. -/
theorem On.call (h : p.On c d) (call : Call σ α) :
    ∃ c' d', c.call call d = ((p.call call).1, c', d') ∧ c'.direction = c.direction ∧
      (p.call call).2.On c' d' := by
  cases call with
  | next =>
      rw [OneWayCursor.call, Pass.call]
      cases hp : p.ahead with
      | nil =>
          refine ⟨c, d, ?_, rfl, h⟩
          rw [OneWayCursor.next_eq, if_pos (by rw [h.remaining_eq, hp]; rfl)]
      | cons x xs =>
          obtain ⟨c', answer, direction, on⟩ := h.next hp
          exact ⟨c', d, by rw [answer], direction, on⟩
  | remove =>
      rw [OneWayCursor.call, Pass.call]
      cases hp : p.current with
      | none =>
          refine ⟨c, d, ?_, rfl, h⟩
          rw [OneWayCursor.remove_eq, h.last_eq, hp]
          rfl
      | some x =>
          obtain ⟨c', d', answer, direction, on⟩ := h.remove hp
          exact ⟨c', d', by rw [answer], direction, on⟩
  | forEachRemaining action s =>
      obtain ⟨c', answer, direction, on⟩ := h.forEachRemaining action s
      exact ⟨c', d, by rw [OneWayCursor.call, answer]; rfl, direction, on⟩
  | hasNext =>
      refine ⟨c, d, ?_, rfl, h⟩
      rw [OneWayCursor.call, OneWayCursor.hasNext, h.remaining_eq, Pass.call]
      cases p.ahead <;> rfl
  | remaining => exact ⟨c, d, by rw [OneWayCursor.call, h.remaining_eq]; rfl, rfl, h⟩

theorem error?_call_iff (call : Call σ α) (p : Pass α) (e : Error) :
    (p.call call).1.error? = some e ↔ p.Fails call e := by
  cases call with
  | next =>
      rw [Pass.call, Fails]
      cases p.ahead <;> simp [Reply.error?, eq_comm]
  | remove =>
      rw [Pass.call, Fails]
      cases p.current <;> simp [Reply.error?, eq_comm]
  | forEachRemaining action s =>
      simp only [Pass.call, Fails]
      cases (traverse action p.ahead s).1.complete <;> simp [Except.map, Reply.error?]
  | _ => simp [Pass.call, Fails, Reply.error?]

/-- A call that fails leaves cursor and deque as they are. -/
theorem On.unchanged (h : p.On c d) {call : Call σ α} {e : Error} (he : p.Fails call e) :
    (c.call call d).2 = (c, d) := by
  cases call with
  | next =>
      rw [OneWayCursor.call, OneWayCursor.next_eq, if_pos (by rw [h.remaining_eq, he.2]; rfl)]
  | remove =>
      rw [OneWayCursor.call, OneWayCursor.remove_eq, h.last_eq, he.2]
      rfl
  | _ => exact he.elim

/-- The pass, the cursor and its deque after the same calls. -/
def sideBySide :
    List (Call σ α) → Pass α × OneWayCursor × Deque α → Pass α × OneWayCursor × Deque α
  | [], state => state
  | call :: calls, (p, c, d) => sideBySide calls ((p.call call).2, (c.call call d).2)

theorem On.sideBySide (h : p.On c d) (calls : List (Call σ α)) :
    ∃ p' c' d', Pass.sideBySide calls (p, c, d) = (p', c', d') ∧ c'.direction = c.direction ∧
      p'.On c' d' ∧ p'.whole = p.whole ∧
      (p.skipped = [] → (∀ call ∈ calls, call.Completes) → p'.skipped = []) := by
  induction calls generalizing p c d with
  | nil => exact ⟨p, c, d, rfl, rfl, h, rfl, fun skipped _ => skipped⟩
  | cons call calls ih =>
      obtain ⟨c₁, d₁, answer, direction₁, on₁⟩ := h.call call
      obtain ⟨p', c', d', run, direction, on, whole, skipped⟩ := ih on₁
      refine ⟨p', c', d', ?_, direction.trans direction₁, on, whole.trans (whole_call call p), ?_⟩
      · rw [Pass.sideBySide, answer]
        exact run
      · intro none_skipped completes
        rw [List.forall_mem_cons] at completes
        exact skipped (skipped_call completes.1 none_skipped) completes.2

/-- After any calls on a cursor, the elements that it has returned and those ahead of it are the
elements of the beginning, each once and in the order of the visit; none are skipped unless a
callback failed. The deque has lost the elements that were removed and no others. The next call
returns what it returns in the pass. It fails exactly when it asks for an element and none is ahead,
or removes one and none was returned since the last removal, and then nothing changes. -/
def Follows (σ : Type u) (p₀ : Pass α) (c₀ : OneWayCursor) (d₀ : Deque α) : Prop :=
  ∀ (calls : List (Call σ α)) (call : Call σ α),
    let (p, c, d) := sideBySide calls (p₀, c₀, d₀)
    let (reply, after) := c.call call d
    p.returned ++ p.ahead ++ p.skipped = c₀.direction.arrange d₀.toList ∧
      ((∀ call ∈ calls, call.Completes) → p.skipped = []) ∧
      c.remaining = p.ahead.length ∧
      d.toList = c₀.direction.arrange p.present ∧
      reply = (p.call call).1 ∧
      (∀ e, reply.error? = some e ↔ p.Fails call e) ∧
      ∀ e, p.Fails call e → after = (c, d)

/-- A cursor at its start has everything ahead. -/
theorem on_start (h : d.WellFormed) (direction : Direction) :
    On ⟨[], none, direction.arrange d.toList, []⟩ (.start direction d) d := by
  have length : d.toList.length = d.length := h.holds.length_eq.symm
  have present_eq : present ⟨[], none, direction.arrange d.toList, []⟩ =
      direction.arrange d.toList := by simp [present, kept]
  rw [OneWayCursor.start_eq]
  refine ⟨⟨?_, rfl⟩, ?_, fun more => ?_, fun _ => rfl⟩
  · rw [present_eq]
    exact (direction.arrange_arrange d.toList).symm ▸ h.holds
  · rw [Direction.length_arrange, length]
  · rw [slotAhead, present_eq, Direction.length_arrange, length]
    cases direction with
    | forward => exact (Circle.forward_zero h.head_lt).symm
    | backward =>
        have some : 0 < d.length := by
          rw [← length]
          exact List.length_pos_iff.2 (by simpa [Direction.arrange] using more)
        have last := Circle.prev_forward_succ (k := d.length - 1) h.head_lt
          (by have := h.length_lt; omega)
        rw [Nat.sub_add_cancel some, ← length, ← h.holds.tail_eq, length] at last
        exact last

/-- On every deque in order, however its elements are laid out, a cursor in either direction passes
every element once. -/
theorem start_follows (h : d.WellFormed) (direction : Direction) :
    Pass.Follows σ ⟨[], none, direction.arrange d.toList, []⟩ (.start direction d) d := by
  intro calls call
  obtain ⟨p, c, d', run, same, on, whole, skipped⟩ := (on_start h direction).sideBySide calls
  obtain ⟨c', d'', answer, -, -⟩ := on.call call
  have holds := on.holds
  rw [same] at holds
  rw [run]
  simp only [answer]
  refine ⟨?_, skipped rfl, on.remaining_eq, holds.toList_eq, trivial, error?_call_iff call p, ?_⟩
  · rw [← Pass.whole, whole, Pass.whole, List.append_nil, OneWayCursor.direction_start]
    rfl
  · intro e he
    have same := on.unchanged he
    rwa [answer] at same

/-- A full buffer whose elements run past its end, visited from the back. -/
theorem start_follows_wrapped :
    let d : Deque Nat := ⟨#[some 3, none, some 1, some 2], 2, 1⟩
    d.WellFormed ∧ Pass.Follows Unit ⟨[], none, [3, 2, 1], []⟩ (.start .backward d) d := by
  intro d
  have ordered : d.WellFormed := Deque.isWellFormed_iff.1 (by decide)
  exact ⟨ordered, start_follows ordered .backward⟩

end Pass

end RingDeque
