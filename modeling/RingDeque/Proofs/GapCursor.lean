import RingDeque.Cursor.TwoWay
import RingDeque.Proofs.Removal

/-!
# A two-way cursor is a gap in a list

To its user a two-way cursor is a place between two elements of a list, and perhaps the index of the
element that it returned last, which is next to that place. `Gap` is this machine. `cursorOn` is the
cursor that a gap becomes on a particular deque: all it holds are slots, so every call that moves
elements has to correct it, and how depends on the side that moved and on where the last element
stood.

An insertion that gets no slots is refused. The machine is told so, since a list cannot run out of
room.
-/

namespace RingDeque

variable {σ : Type u} {α : Type v}

/-- Why the deque cannot take one more element, if it cannot. -/
def Deque.refusal? (a : Allocator) (d : Deque α) : Option Error :=
  if d.length + 1 < d.slotCount then none
  else
    match d.grownSlotCount a 1 with
    | .error e => some e
    | .ok count => if a.grants count then none else some (.capacityOverflow count)

namespace Deque

variable {a : Allocator} {d : Deque α} {xs : List α} {x : α} {k : Nat}

/-- There is no refusal exactly when there is room for one more. -/
theorem Holds.refusal?_eq_none_iff (h : d.Holds xs) :
    d.refusal? a = none ↔ d.Room a (xs.length + 1) := by
  have length := h.length_lt
  rw [refusal?, h.length_eq]
  split
  · next fits => exact iff_of_true rfl (.inl fits)
  · rw [@room_iff_of_full _ a d xs d (by omega) rfl]
    cases answer : d.grownSlotCount a 1 with
    | error e => simp
    | ok count => cases granted : a.grants count <;> simp [granted]

theorem noRoom_of_refusal? {e : Error} (h : d.refusal? a = some e) : NoRoom e := by
  rw [refusal?] at h
  split at h
  · contradiction
  · cases answer : d.grownSlotCount a 1 with
    | error e' =>
        rw [answer] at h
        cases h
        exact noRoom_of_grownSlotCount answer
    | ok count =>
        rw [answer] at h
        cases granted : a.grants count with
        | true => simp [granted] at h
        | false =>
            simp only [granted, Bool.false_eq_true, if_false, Option.some.injEq] at h
            exact ⟨count, h.symm⟩

/-- An insertion that is refused says why and changes nothing. -/
theorem Holds.insertAt_of_refusal? (h : d.Holds xs) (hk : k ≤ xs.length) {e : Error}
    (he : d.refusal? a = some e) : d.insertAt a (d.position k) x = (.error e, d) := by
  have room : ¬d.Room a (xs.length + 1) := by
    rw [← h.refusal?_eq_none_iff, he]
    exact Option.some_ne_none e
  have full := h.not_full_of_not_room room
  obtain ⟨front, back⟩ := h.steps_position hk
  simp only [Deque.insertAt_eq, front, back]
  rw [if_pos (by omega)]
  rw [refusal?, h.length_eq, if_neg (by omega)] at he
  cases answer : d.grownSlotCount a 1 with
  | error e' =>
      rw [answer] at he
      cases he
      rfl
  | ok count =>
      rw [answer] at he
      cases granted : a.grants count with
      | true => simp [granted] at he
      | false =>
          simp only [granted, Bool.false_eq_true, if_false, Option.some.injEq] at he
          simp only [relayout_of_refused granted, he]

end Deque

namespace TwoWayCursor

/-- A call on a cursor. An insertion comes with the allocator that serves it, a callback with the
state it starts in. -/
inductive Call (σ : Type u) (α : Type v) where
  | next
  | previous
  | set (x : α)
  | remove
  | add (a : Allocator) (x : α)
  | forEachRemaining (action : Callback σ α Unit) (s : σ)
  | hasNext
  | hasPrevious
  | nextIndex
  | previousIndex

/-- What a call returns. -/
inductive Reply (σ : Type u) (α : Type v) where
  | element (result : Except Error α)
  | added (result : Except Error Unit)
  | visited (result : Except Fault (Except Error Unit)) (s : σ)
  | flag (answer : Bool)
  | index (index? : Option Nat)

/-- Make the call on a cursor and its deque. -/
def call : Call σ α → TwoWayCursor → Deque α → Reply σ α × TwoWayCursor × Deque α
  | .next, c, d => let (result, c) := c.next d; (.element result, c, d)
  | .previous, c, d => let (result, c) := c.previous d; (.element result, c, d)
  | .set x, c, d => let (result, d) := c.set x d; (.element result, c, d)
  | .remove, c, d => let (result, c, d) := c.remove d; (.element result, c, d)
  | .add a x, c, d => let (result, c, d) := c.add a x d; (.added result, c, d)
  | .forEachRemaining action s, c, d =>
    let ((result, c), s) := c.forEachRemaining action d s; (.visited result s, c, d)
  | .hasNext, c, d => (.flag c.hasNext, c, d)
  | .hasPrevious, c, d => (.flag c.hasPrevious, c, d)
  | .nextIndex, c, d => (.index (some c.nextIndex), c, d)
  | .previousIndex, c, d => (.index c.previousIndex?, c, d)

/-- The error that a call returned. -/
def Reply.error? : Reply σ α → Option Error
  | .element (.error e) | .added (.error e) | .visited (.ok (.error e)) _ => some e
  | _ => none

/-- Why the call is refused for want of slots, if it is. -/
def Call.refusal? : Call σ α → Deque α → Option Error
  | .add a _, d => d.refusal? a
  | _, _ => none

end TwoWayCursor

open TwoWayCursor (Call Reply)

/-- A place between the elements of a list. -/
structure Gap (α : Type u) where
  list : List α
  /-- How many elements stand in front of the gap. -/
  place : Nat
  /-- The index of the element returned last, unless it was removed or another was inserted
  since. -/
  last : Option Nat

namespace Gap

/-- The element at an index, which the machine only asks for at the ends when there is none. -/
def element (g : Gap α) (k : Nat) : Except Error α :=
  match g.list[k]? with
  | some x => .ok x
  | none => .error .noSuchElement

/-- The machine after it has moved past `n` elements. -/
def past (g : Gap α) : Nat → Gap α
  | 0 => g
  | n + 1 => ⟨g.list, g.place + (n + 1), some (g.place + n)⟩

/-- What the call returns, and the machine afterwards. -/
def call (refusal : Option Error) : Call σ α → Gap α → Reply σ α × Gap α
  | .next, g =>
    (.element (g.element g.place), if g.place < g.list.length then g.past 1 else g)
  | .previous, g =>
    if g.place = 0 then
      (.element (.error .noSuchElement), g)
    else
      (.element (g.element (g.place - 1)),
        { g with place := g.place - 1, last := some (g.place - 1) })
  | .set x, g =>
    match g.last with
    | none => (.element (.error .noCurrentElement), g)
    | some k => (.element (g.element k), ⟨g.list.set k x, g.place, some k⟩)
  | .remove, g =>
    match g.last with
    | none => (.element (.error .noCurrentElement), g)
    | some k =>
      (.element (g.element k),
        ⟨g.list.eraseIdx k, if k < g.place then g.place - 1 else g.place, none⟩)
  | .add _ x, g =>
    match refusal with
    | some e => (.added (.error e), g)
    | none => (.added (.ok ()), ⟨g.list.insertIdx g.place x, g.place + 1, none⟩)
  | .forEachRemaining action s, g =>
    let (seen, s) := traverse action (g.list.drop g.place) s
    (.visited (seen.complete.map fun _ => .ok ()) s, g.past seen.values.length)
  | .hasNext, g => (.flag (decide (g.place < g.list.length)), g)
  | .hasPrevious, g => (.flag (decide (0 < g.place)), g)
  | .nextIndex, g => (.index (some g.place), g)
  | .previousIndex, g => (.index (if g.place = 0 then none else some (g.place - 1)), g)

/-- The errors that a call on the machine meets, each in one situation. -/
def Fails (g : Gap α) : Call σ α → Error → Prop
  | .next, e => e = .noSuchElement ∧ g.place = g.list.length
  | .previous, e => e = .noSuchElement ∧ g.place = 0
  | .set _, e | .remove, e => e = .noCurrentElement ∧ g.last = none
  | _, _ => False

/-- The cursor that stands for the gap on a deque. -/
def cursorOn (g : Gap α) (d : Deque α) : TwoWayCursor where
  position := d.position g.place
  start := d.head
  stop := d.tail
  slotCount := d.slotCount
  last := g.last.map d.position

/-- The machine is about the elements of this deque. The element returned last stands on one side of
the gap. -/
structure On (g : Gap α) (d : Deque α) : Prop where
  holds : d.Holds g.list
  place_le : g.place ≤ g.list.length
  last_near : ∀ k, g.last = some k → k < g.list.length ∧ (k + 1 = g.place ∨ k = g.place)

variable {g : Gap α} {d d' : Deque α} {j k : Nat}

@[simp] theorem position_cursorOn (g : Gap α) (d : Deque α) :
    (g.cursorOn d).position = d.position g.place := rfl

@[simp] theorem start_cursorOn (g : Gap α) (d : Deque α) : (g.cursorOn d).start = d.head := rfl

@[simp] theorem stop_cursorOn (g : Gap α) (d : Deque α) : (g.cursorOn d).stop = d.tail := rfl

@[simp] theorem slotCount_cursorOn (g : Gap α) (d : Deque α) :
    (g.cursorOn d).slotCount = d.slotCount := rfl

@[simp] theorem last_cursorOn (g : Gap α) (d : Deque α) :
    (g.cursorOn d).last = g.last.map d.position := rfl

@[simp] theorem agrees_cursorOn (g : Gap α) (d : Deque α) : (g.cursorOn d).agrees d = true := by
  simp [TwoWayCursor.agrees]

theorem On.position_inj (h : g.On d) (hj : j ≤ g.list.length) (hk : k ≤ g.list.length) :
    d.position j = d.position k ↔ j = k :=
  have length := h.holds.length_lt
  Circle.forward_inj (by omega) (by omega)

theorem On.at_stop_iff (h : g.On d) : d.position g.place = d.tail ↔ g.place = g.list.length := by
  rw [← h.holds.position_length, h.position_inj h.place_le (Nat.le_refl _)]

theorem On.at_start_iff (h : g.On d) : d.position g.place = d.head ↔ g.place = 0 := by
  have front : d.position 0 = d.head := Circle.forward_zero h.holds.head_lt
  rw [← front, h.position_inj h.place_le (Nat.zero_le _)]

theorem On.next_position (h : g.On d) (hk : k < g.list.length) :
    Circle.next (d.position k) d.slotCount = d.position (k + 1) :=
  Circle.next_forward h.holds.head_lt (Nat.lt_trans hk h.holds.length_lt)

theorem On.prev_position (h : g.On d) (hk : k < g.list.length) :
    Circle.prev (d.position (k + 1)) d.slotCount = d.position k :=
  Circle.prev_forward_succ h.holds.head_lt (Nat.lt_trans hk h.holds.length_lt)

theorem On.element_position (h : g.On d) (hk : k < g.list.length) :
    TwoWayCursor.element d (d.position k) = g.element k := by
  rw [TwoWayCursor.element, element, h.holds.slot_position (Nat.lt_trans hk h.holds.length_lt),
    List.getElem?_eq_getElem hk]

theorem past_past_one (g : Gap α) (n : Nat) : (g.past 1).past n = g.past (n + 1) := by
  cases n with
  | zero => rfl
  | succ n => simp only [past, Gap.mk.injEq, Option.some.injEq, true_and]; omega

theorem On.past_one (h : g.On d) (inside : g.place < g.list.length) : (g.past 1).On d where
  holds := h.holds
  place_le := inside
  last_near := by
    rintro k ⟨⟩
    exact ⟨inside, .inl rfl⟩

/-- The cursor in front of the next element, and behind it. -/
theorem On.step (h : g.On d) (inside : g.place < g.list.length) :
    ({ g.cursorOn d with
      position := Circle.next (g.cursorOn d).position (g.cursorOn d).slotCount
      last := some (g.cursorOn d).position } : TwoWayCursor) = (g.past 1).cursorOn d := by
  rw [position_cursorOn, slotCount_cursorOn, h.next_position inside]
  rfl

theorem On.next (h : g.On d) :
    (g.cursorOn d).next d = (g.element g.place,
        (if g.place < g.list.length then g.past 1 else g).cursorOn d) ∧
      (if g.place < g.list.length then g.past 1 else g).On d := by
  have bound := h.place_le
  rw [TwoWayCursor.next_eq, agrees_cursorOn]
  by_cases back : g.place = g.list.length
  · rw [if_pos (show (g.cursorOn d).position = (g.cursorOn d).stop from h.at_stop_iff.2 back),
      if_neg (by omega), element, List.getElem?_eq_none (by omega)]
    exact ⟨rfl, h⟩
  · have inside : g.place < g.list.length := by omega
    rw [if_neg fun stop : (g.cursorOn d).position = (g.cursorOn d).stop =>
        back (h.at_stop_iff.1 stop), if_pos rfl, if_pos inside, h.step inside, position_cursorOn,
      h.element_position inside]
    exact ⟨rfl, h.past_one inside⟩

theorem On.previous (h : g.On d) (hg : g.place ≠ 0) :
    (g.cursorOn d).previous d = (g.element (g.place - 1),
        Gap.cursorOn ⟨g.list, g.place - 1, some (g.place - 1)⟩ d) ∧
      On ⟨g.list, g.place - 1, some (g.place - 1)⟩ d := by
  have bound := h.place_le
  have inside : g.place - 1 < g.list.length := by omega
  have before := h.prev_position inside
  rw [Nat.sub_add_cancel (by omega)] at before
  refine ⟨?_, h.holds, Nat.le_of_lt inside, ?_⟩
  · simp only [TwoWayCursor.previous_eq, position_cursorOn, start_cursorOn, slotCount_cursorOn,
      agrees_cursorOn, if_true]
    rw [if_neg fun start => hg (h.at_start_iff.1 start), before, h.element_position inside]
    rfl
  · rintro k ⟨⟩
    exact ⟨inside, .inr rfl⟩

theorem On.set (h : g.On d) {x : α} (hl : g.last = some k) :
    ∃ d', (g.cursorOn d).set x d = (g.element k, d') ∧
      g.cursorOn d = Gap.cursorOn ⟨g.list.set k x, g.place, some k⟩ d' ∧
      On ⟨g.list.set k x, g.place, some k⟩ d' := by
  obtain ⟨inside, near⟩ := h.last_near k hl
  obtain ⟨d', hd', holds⟩ := h.holds.replaceSlot (x := x) (Nat.lt_trans inside h.holds.length_lt)
  obtain ⟨head, tail, size⟩ := d.layout_replaceSlot (d.position k) x
  rw [hd'] at head tail size
  refine ⟨d', ?_, ?_, holds, ?_, ?_⟩
  · simp only [TwoWayCursor.set, last_cursorOn, hl, Option.map_some, agrees_cursorOn, if_true, hd',
      element, List.getElem?_eq_getElem inside]
  · rw [cursorOn, cursorOn, Deque.position_congr head size, head, size, tail, hl]
  · rw [List.length_set]
    exact h.place_le
  · rw [List.length_set, ← hl]
    exact h.last_near

/-- Which side moved decides what has to be corrected. -/
theorem On.remove (h : g.On d) (hl : g.last = some k) :
    ∃ d', (g.cursorOn d).remove d = (g.element k,
        Gap.cursorOn ⟨g.list.eraseIdx k, if k < g.place then g.place - 1 else g.place, none⟩ d',
        d') ∧
      On ⟨g.list.eraseIdx k, if k < g.place then g.place - 1 else g.place, none⟩ d' := by
  obtain ⟨inside, near⟩ := h.last_near k hl
  have bound := h.place_le
  have length := h.holds.length_lt
  obtain ⟨closed, d', hd', holds, moved⟩ := h.holds.delete inside
  have erased : (g.list.eraseIdx k).length = g.list.length - 1 := List.length_eraseIdx_of_lt inside
  refine ⟨d', ?_, holds, ?_, by simp⟩
  · simp only [TwoWayCursor.remove_eq, last_cursorOn, hl, Option.map_some, agrees_cursorOn, if_true,
      hd', element, List.getElem?_eq_getElem inside, Prod.mk.injEq, and_true, true_and]
    have behind : (d.position k == d.position g.place) = decide (k = g.place) := by
      rw [Bool.eq_iff_iff, beq_iff_eq, decide_eq_true_eq, h.position_inj (by omega) bound]
    cases closed with
    | tail =>
        -- The elements behind `k` come up, so indices have the slots that they had.
        have start : d'.head = d.head := moved.2
        simp only [TwoWayCursor.afterRemoval_eq, behind, decide_eq_true_eq, cursorOn,
          moved.position_tail, start, moved.1, Option.map_none]
        rcases near with front | here
        · rw [if_neg (by omega), if_pos (by omega), ← front, h.prev_position inside,
            Nat.add_sub_cancel]
        · rw [if_pos here, if_neg (by omega)]
    | head =>
        -- The elements in front of `k` move up, so an index now has the slot of the next one.
        have position {j} (hj : j < d.slotCount) := moved.position_head h.holds.head_lt hj
        have stop : d'.tail = d.tail := by
          rw [← holds.position_length, erased, position (by omega),
            Nat.sub_add_cancel (by omega), h.holds.position_length]
        simp only [TwoWayCursor.afterRemoval_eq, behind, decide_eq_true_eq, cursorOn, stop,
          moved.1, Option.map_none]
        rcases near with front | here
        · rw [if_neg (by omega), if_pos (by omega), position (by omega),
            Nat.sub_add_cancel (by omega)]
        · rw [if_pos here, if_neg (by omega), position (by omega), ← here, h.next_position inside]
  · dsimp only
    rw [erased]
    split <;> omega

/-- The cursor ends up behind the new element, in a fresh buffer too. -/
theorem On.add (h : g.On d) {a : Allocator} {x : α} (ha : d.refusal? a = none) :
    ∃ d', (g.cursorOn d).add a x d = (.ok (),
        Gap.cursorOn ⟨g.list.insertIdx g.place x, g.place + 1, none⟩ d', d') ∧
      On ⟨g.list.insertIdx g.place x, g.place + 1, none⟩ d' := by
  have bound := h.place_le
  have length := h.holds.length_lt
  obtain ⟨shift, d', hd', holds, moved⟩ := h.holds.insertAt (x := x) bound
    (h.holds.refusal?_eq_none_iff.1 ha)
  have inserted : (g.list.insertIdx g.place x).length = g.list.length + 1 :=
    List.length_insertIdx_of_le_length bound x
  have larger := holds.length_lt
  refine ⟨d', ?_, holds, by simp only [inserted]; omega, by simp⟩
  simp only [TwoWayCursor.add_eq, agrees_cursorOn, if_true, position_cursorOn, hd', Prod.mk.injEq,
    and_true, true_and]
  cases shift with
  | reallocated =>
      have start : d'.head = 0 := moved
      have index : (g.cursorOn d).nextIndex = g.place := (h.holds.steps_position bound).1
      have place : d'.position (g.place + 1) = g.place + 1 := by
        rw [Deque.position, start, Circle.zero_forward (by omega)]
      rw [TwoWayCursor.afterInsertion_eq]
      change TwoWayCursor.mk ((g.cursorOn d).nextIndex + 1) d'.head d'.tail d'.slotCount none =
        TwoWayCursor.mk (d'.position (g.place + 1)) d'.head d'.tail d'.slotCount none
      rw [index, place]
  | tail =>
      obtain ⟨start, same⟩ := moved
      have place : d'.position (g.place + 1) = Circle.next (d.position g.place) d.slotCount := by
        rw [Deque.position, Deque.position, start, same,
          Circle.next_forward h.holds.head_lt (by omega)]
      simp only [TwoWayCursor.afterInsertion_eq, cursorOn, place, start, same, Option.map_none]
  | head =>
      obtain ⟨start, same⟩ := moved
      have position {j} (hj : j < d.slotCount) : d'.position (j + 1) = d.position j := by
        rw [Deque.position, Deque.position, start, same,
          Circle.forward_prev_succ h.holds.head_lt hj]
      have stop : d'.tail = d.tail := by
        rw [← holds.position_length, inserted, position length, h.holds.position_length]
      simp only [TwoWayCursor.afterInsertion_eq, cursorOn,
        position (show g.place < d.slotCount by omega), stop, same, Option.map_none]

/-- The cursor moves past every element that the callback has seen. -/
theorem On.visit (h : g.On d) (action : Callback σ α Unit) {count : Nat}
    (hc : g.place + count = g.list.length) (s : σ) :
    TwoWayCursor.visit action d count (g.cursorOn d) s =
        (((traverse action (g.list.drop g.place) s).1.complete.map fun _ => (),
          (g.past (traverse action (g.list.drop g.place) s).1.values.length).cursorOn d),
          (traverse action (g.list.drop g.place) s).2) ∧
      (g.past (traverse action (g.list.drop g.place) s).1.values.length).On d := by
  induction count generalizing g s with
  | zero =>
      rw [List.drop_of_length_le (by omega)]
      exact ⟨rfl, h⟩
  | succ count ih =>
      have inside : g.place < g.list.length := by omega
      have here : d.slot (g.cursorOn d).position = some g.list[g.place] := by
        rw [position_cursorOn, h.holds.slot_position (Nat.lt_trans inside h.holds.length_lt),
          List.getElem?_eq_getElem inside]
      rw [List.drop_eq_getElem_cons inside, traverse_cons, TwoWayCursor.visit_succ]
      simp only [here, h.step inside]
      rcases action g.list[g.place] s with ⟨_ | _, s'⟩
      · exact ⟨rfl, h⟩
      · obtain ⟨rest, on⟩ := ih (h.past_one inside) (by simp only [past]; omega) s'
        have ahead : (g.past 1).list.drop (g.past 1).place = g.list.drop (g.place + 1) := rfl
        rw [past_past_one, ahead] at rest on
        simp only [rest]
        generalize traverse action (g.list.drop (g.place + 1)) s' = outcome at on ⊢
        obtain ⟨⟨seen, _ | fault⟩, s''⟩ := outcome
        · exact ⟨rfl, on⟩
        · exact ⟨rfl, on⟩

theorem On.forEachRemaining (h : g.On d) (action : Callback σ α Unit) (s : σ) :
    (g.cursorOn d).forEachRemaining action d s =
        (((traverse action (g.list.drop g.place) s).1.complete.map fun _ => .ok (),
          (g.past (traverse action (g.list.drop g.place) s).1.values.length).cursorOn d),
          (traverse action (g.list.drop g.place) s).2) ∧
      (g.past (traverse action (g.list.drop g.place) s).1.values.length).On d := by
  have count : Circle.steps (g.cursorOn d).position (g.cursorOn d).stop (g.cursorOn d).slotCount =
      g.list.length - g.place := (h.holds.steps_position h.place_le).2
  obtain ⟨visited, on⟩ := h.visit action (Nat.add_sub_cancel' h.place_le) s
  rw [TwoWayCursor.forEachRemaining_eq, if_pos (agrees_cursorOn g d), count, visited]
  refine ⟨?_, on⟩
  cases (traverse action (g.list.drop g.place) s).1.complete <;> rfl

theorem On.hasNext (h : g.On d) : (g.cursorOn d).hasNext = decide (g.place < g.list.length) := by
  have bound := h.place_le
  have stop := h.at_stop_iff
  rw [TwoWayCursor.hasNext, Bool.eq_iff_iff, bne_iff_ne, decide_eq_true_eq, position_cursorOn,
    stop_cursorOn, ne_eq, stop]
  omega

theorem On.hasPrevious (h : g.On d) : (g.cursorOn d).hasPrevious = decide (0 < g.place) := by
  rw [TwoWayCursor.hasPrevious, Bool.eq_iff_iff, bne_iff_ne, decide_eq_true_eq, position_cursorOn,
    start_cursorOn, ne_eq, h.at_start_iff, Nat.pos_iff_ne_zero]

theorem On.nextIndex (h : g.On d) : (g.cursorOn d).nextIndex = g.place :=
  (h.holds.steps_position h.place_le).1

/-- One call: the cursor answers as the machine does and still stands for it. -/
theorem On.call (h : g.On d) (call : Call σ α) :
    ∃ d', TwoWayCursor.call call (g.cursorOn d) d = ((g.call (call.refusal? d) call).1,
        (g.call (call.refusal? d) call).2.cursorOn d', d') ∧
      (g.call (call.refusal? d) call).2.On d' ∧
      (call.refusal? d ≠ none → (g.call (call.refusal? d) call).2 = g ∧ d' = d) := by
  cases call with
  | next =>
      obtain ⟨answer, on⟩ := h.next
      exact ⟨d, by rw [TwoWayCursor.call, answer]; rfl, on, fun refused => (refused rfl).elim⟩
  | previous =>
      rw [TwoWayCursor.call, Gap.call]
      by_cases front : g.place = 0
      · have start : (g.cursorOn d).position = (g.cursorOn d).start := h.at_start_iff.2 front
        rw [if_pos front, TwoWayCursor.previous_eq, if_pos start]
        exact ⟨d, rfl, h, fun refused => (refused rfl).elim⟩
      · obtain ⟨answer, on⟩ := h.previous front
        rw [if_neg front, answer]
        exact ⟨d, rfl, on, fun refused => (refused rfl).elim⟩
  | set x =>
      rw [TwoWayCursor.call, Gap.call]
      cases hl : g.last with
      | none =>
          refine ⟨d, ?_, h, fun refused => (refused rfl).elim⟩
          rw [TwoWayCursor.set, last_cursorOn, hl]
          rfl
      | some k =>
          obtain ⟨d', answer, same, on⟩ := h.set (x := x) hl
          exact ⟨d', by rw [answer, same], on, fun refused => (refused rfl).elim⟩
  | remove =>
      rw [TwoWayCursor.call, Gap.call]
      cases hl : g.last with
      | none =>
          refine ⟨d, ?_, h, fun refused => (refused rfl).elim⟩
          rw [TwoWayCursor.remove_eq, last_cursorOn, hl]
          rfl
      | some k =>
          obtain ⟨d', answer, on⟩ := h.remove hl
          exact ⟨d', by rw [answer], on, fun refused => (refused rfl).elim⟩
  | add a x =>
      rw [TwoWayCursor.call, TwoWayCursor.Call.refusal?]
      cases refusal : d.refusal? a with
      | none =>
          rw [Gap.call]
          obtain ⟨d', answer, on⟩ := h.add (x := x) refusal
          exact ⟨d', by rw [answer], on, fun refused => (refused rfl).elim⟩
      | some e =>
          refine ⟨d, ?_, h, fun _ => ⟨rfl, rfl⟩⟩
          rw [Gap.call, TwoWayCursor.add_eq, if_pos (agrees_cursorOn g d), position_cursorOn,
            h.holds.insertAt_of_refusal? h.place_le refusal]
  | forEachRemaining action s =>
      obtain ⟨answer, on⟩ := h.forEachRemaining action s
      exact ⟨d, by rw [TwoWayCursor.call, answer]; rfl, on, fun refused => (refused rfl).elim⟩
  | hasNext =>
      exact ⟨d, by rw [TwoWayCursor.call, h.hasNext]; rfl, h, fun refused => (refused rfl).elim⟩
  | hasPrevious =>
      exact ⟨d, by rw [TwoWayCursor.call, h.hasPrevious]; rfl, h,
        fun refused => (refused rfl).elim⟩
  | nextIndex =>
      exact ⟨d, by rw [TwoWayCursor.call, h.nextIndex]; rfl, h, fun refused => (refused rfl).elim⟩
  | previousIndex =>
      exact ⟨d, by rw [TwoWayCursor.call, TwoWayCursor.previousIndex?_eq, h.nextIndex]; rfl, h,
        fun refused => (refused rfl).elim⟩

theorem error?_element (hk : k < g.list.length) :
    (Reply.element (g.element k) : Reply σ α).error? = none := by
  rw [element, List.getElem?_eq_getElem hk]
  rfl

/-- The only errors are those of the ends, of a missing last element and of a refused insertion. -/
theorem On.error?_call_iff (h : g.On d) (call : Call σ α) (e : Error) :
    (g.call (call.refusal? d) call).1.error? = some e ↔
      g.Fails call e ∨ call.refusal? d = some e := by
  have bound := h.place_le
  cases call with
  | next =>
      simp only [Gap.call, Fails, TwoWayCursor.Call.refusal?]
      by_cases inside : g.place < g.list.length
      · simp [error?_element inside, Nat.ne_of_lt inside]
      · have back : g.place = g.list.length := by omega
        rw [element, List.getElem?_eq_none (by omega)]
        simp [Reply.error?, back, eq_comm]
  | previous =>
      simp only [Gap.call, Fails, TwoWayCursor.Call.refusal?]
      by_cases front : g.place = 0
      · simp [Reply.error?, front, eq_comm]
      · simp [front, error?_element (show g.place - 1 < g.list.length by omega)]
  | set x =>
      simp only [Gap.call, Fails, TwoWayCursor.Call.refusal?]
      cases hl : g.last with
      | none => simp [Reply.error?, eq_comm]
      | some k => simp [error?_element (h.last_near k hl).1]
  | remove =>
      simp only [Gap.call, Fails, TwoWayCursor.Call.refusal?]
      cases hl : g.last with
      | none => simp [Reply.error?, eq_comm]
      | some k => simp [error?_element (h.last_near k hl).1]
  | add a x =>
      rw [TwoWayCursor.Call.refusal?]
      cases d.refusal? a <;> simp [Gap.call, Fails, Reply.error?]
  | forEachRemaining action s =>
      simp only [Gap.call, Fails, TwoWayCursor.Call.refusal?]
      cases (traverse action (g.list.drop g.place) s).1.complete <;> simp [Except.map, Reply.error?]
  | _ => simp [Gap.call, Fails, TwoWayCursor.Call.refusal?, Reply.error?]

/-- The machine, a cursor and its deque after the same calls. -/
def sideBySide :
    List (Call σ α) → Gap α × TwoWayCursor × Deque α → Gap α × TwoWayCursor × Deque α
  | [], state => state
  | call :: calls, (g, c, d) =>
    sideBySide calls ((g.call (call.refusal? d) call).2, (c.call call d).2)

/-- However many calls there were, the cursor is the one that stands for the machine. -/
theorem On.sideBySide (h : g.On d) (calls : List (Call σ α)) :
    ∃ g' d', Gap.sideBySide calls (g, g.cursorOn d, d) = (g', g'.cursorOn d', d') ∧ g'.On d' := by
  induction calls generalizing g d with
  | nil => exact ⟨g, d, rfl, h⟩
  | cons call calls ih =>
      obtain ⟨d', answer, on, -⟩ := h.call call
      rw [Gap.sideBySide, answer]
      exact ih on

/-- After any calls on a cursor the next one returns what it returns on the machine. It fails
exactly at an end, without a last element, or, if it inserts, for want of slots; then cursor and
deque stay as they are. -/
def Follows (σ : Type u) (g₀ : Gap α) (c₀ : TwoWayCursor) (d₀ : Deque α) : Prop :=
  ∀ (calls : List (Call σ α)) (call : Call σ α),
    let (g, c, d) := sideBySide calls (g₀, c₀, d₀)
    let (reply, after) := c.call call d
    g.On d ∧ d.toList = g.list ∧ c = g.cursorOn d ∧
      reply = (g.call (call.refusal? d) call).1 ∧
      (∀ e, reply.error? = some e ↔ g.Fails call e ∨ call.refusal? d = some e) ∧
      ∀ e, call.refusal? d = some e → Deque.NoRoom e ∧ after = (c, d)

theorem On.follows (h : g.On d) : g.Follows σ (g.cursorOn d) d := by
  intro calls call
  obtain ⟨g', d', run, on⟩ := h.sideBySide calls
  obtain ⟨d'', answer, -, unchanged⟩ := on.call call
  rw [run]
  simp only [answer]
  refine ⟨on, on.holds.toList_eq, trivial, trivial, on.error?_call_iff call, ?_⟩
  intro e he
  obtain ⟨same, rfl⟩ := unchanged (by rw [he]; exact Option.some_ne_none e)
  refine ⟨?_, by rw [same]⟩
  cases call with
  | add a x => exact Deque.noRoom_of_refusal? he
  | _ => exact absurd he (by simp [TwoWayCursor.Call.refusal?])

/-- A cursor that is set up at an index stands in the gap in front of the element with that
index. -/
theorem on_cursorAt (h : d.WellFormed) {index : Nat} (hi : index ≤ d.length) :
    On ⟨d.toList, index, none⟩ d ∧
      d.cursorAt index = .ok (Gap.cursorOn ⟨d.toList, index, none⟩ d) := by
  have length : d.toList.length = d.length := h.holds.length_eq.symm
  constructor
  · exact ⟨h.holds, by simpa only [length], by simp⟩
  · rw [Deque.cursorAt_eq, if_neg (by omega)]
    rfl

/-- On every deque in order, however its elements are laid out, a cursor that is set up at an index
behaves like the gap in front of the element with that index. -/
theorem cursorAt_follows (h : d.WellFormed) {index : Nat} (hi : index ≤ d.length) :
    ∃ c, d.cursorAt index = .ok c ∧ Gap.Follows σ ⟨d.toList, index, none⟩ c d := by
  obtain ⟨start, answer⟩ := on_cursorAt h hi
  exact ⟨_, answer, start.follows⟩

/-- A full buffer whose elements run past its end, so that the first insertion moves to a larger
one. -/
theorem cursorAt_follows_wrapped :
    let d : Deque Nat := ⟨#[some 3, none, some 1, some 2], 2, 1⟩
    d.WellFormed ∧ 1 ≤ d.length ∧
      ∃ c, d.cursorAt 1 = .ok c ∧ Gap.Follows Unit ⟨d.toList, 1, none⟩ c d := by
  intro d
  have ordered : d.WellFormed := Deque.isWellFormed_iff.1 (by decide)
  exact ⟨ordered, by decide, cursorAt_follows ordered (by decide)⟩

end Gap

end RingDeque
