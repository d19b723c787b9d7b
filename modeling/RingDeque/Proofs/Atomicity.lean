import RingDeque.Proofs.StaleCursor

/-!
# All or nothing

An operation that ends with an error leaves the deque exactly as it was: the slots, `head` and
`tail`, not only the elements. An allocator may refuse any request it likes, and the additions at
the ends have by then written the new element and moved an end.

`Exhausted` is the one reason for which an operation that may have to grow reports that slots are
missing. It is stated in numbers: the buffer is too small, and the larger one exceeds the bound on
slots or is refused. `Outcome` lists the three ways in which a request can end, and each request is
shown to end in one of them.
-/

namespace RingDeque

variable {α : Type u} {β : Type v}

namespace Deque

variable {a : Allocator} {d : Deque α} {xs : List α} {needed count : Nat}

/-- How many slots are asked for when at least `needed` more are required. -/
def enlarged (a : Allocator) (needed : Nat) (d : Deque α) : Nat :=
  if d.jump < needed then d.slotCount + needed else min (d.slotCount + d.jump) a.maxSlots

/-- The buffer is too small for `count` elements, and a larger one is not to be had. -/
def Exhausted (a : Allocator) (count : Nat) (d : Deque α) : Prop :=
  d.capacity < count ∧
    (a.maxSlots < count + 1 ∨ a.grants (d.enlarged a (count + 1 - d.slotCount)) = false)

theorem grownSlotCount_of_le (h : d.slotCount + needed ≤ a.maxSlots) :
    d.grownSlotCount a needed = .ok (d.enlarged a needed) := by
  rw [grownSlotCount_eq, if_pos h, enlarged]

theorem Holds.capacity_lt_iff (h : d.Holds xs) : d.capacity < count ↔ d.slotCount ≤ count := by
  have occupied := h.slotCount_pos
  rw [capacity]
  omega

/-- There is room exactly if the deque is not exhausted. -/
theorem Holds.exhausted_iff (h : d.Holds xs) : d.Exhausted a count ↔ ¬d.Room a count := by
  rw [Exhausted, h.capacity_lt_iff]
  by_cases fits : count < d.slotCount
  · have room : d.Room a count := .inl fits
    exact iff_of_false (fun full => absurd fits (Nat.not_lt.2 full.1)) (not_not_intro room)
  · have small : d.slotCount ≤ count := Nat.le_of_not_lt fits
    have total : d.slotCount + (count + 1 - d.slotCount) = count + 1 := by omega
    rw [room_iff_of_le small]
    by_cases bound : a.maxSlots < count + 1
    · have none : ¬∃ size, d.grownSlotCount a (count + 1 - d.slotCount) = .ok size ∧
          a.grants size = true := by
        rintro ⟨size, answer, -⟩
        have larger := le_of_grownSlotCount answer
        omega
      exact iff_of_true ⟨small, .inl bound⟩ none
    · rw [grownSlotCount_of_le (by omega)]
      constructor
      · rintro ⟨-, large | refused⟩ ⟨size, answer, granted⟩
        · exact bound large
        · cases answer
          rw [refused] at granted
          contradiction
      · intro refused
        refine ⟨small, .inr ?_⟩
        rw [← Bool.not_eq_true]
        intro granted
        exact refused ⟨_, rfl, granted⟩

end Deque

/-- An operation that can end with an error, and its arguments. -/
inductive Request (α : Type u) where
  | tryPushFront (x : α)
  | tryPushBack (x : α)
  | pushFront (x : α)
  | pushBack (x : α)
  | insert (index : Nat) (x : α)
  | removeAt (index : Nat)
  | set (index : Nat) (x : α)
  | insertAll (index : Nat) (source : Trace α)
  | tryAddAll (source : Trace α)
  | addAll (source : Trace α)
  | ensureCapacity (capacity : Nat)
  | tryTrimToSize
  | cursorSet (c : TwoWayCursor) (x : α)
  | cursorAdd (c : TwoWayCursor) (x : α)
  | cursorRemove (c : TwoWayCursor)

/-- The error that was returned. -/
def reported : Except Error β → Option Error
  | .ok _ => none
  | .error e => some e

/-- The error that was turned into a fault. -/
def panicked : Except Fault β → Option Error
  | .error (.refused e) => some e
  | _ => none

namespace Request

/-- The error with which the operation ends, if it does, and the deque afterwards. A fault of a
source is not an error of the operation that reads it. -/
def run (a : Allocator) : Request α → Deque α → Option Error × Deque α
  | .tryPushFront x, d => let (result, d) := d.tryPushFront a x; (reported result, d)
  | .tryPushBack x, d => let (result, d) := d.tryPushBack a x; (reported result, d)
  | .pushFront x, d => let (result, d) := d.pushFront a x; (panicked result, d)
  | .pushBack x, d => let (result, d) := d.pushBack a x; (panicked result, d)
  | .insert index x, d => let (result, d) := d.insert a index x; (reported result, d)
  | .removeAt index, d => let (result, d) := d.removeAt index; (reported result, d)
  | .set index x, d => let (result, d) := d.set index x; (reported result, d)
  | .insertAll index source, d =>
    let (result, d) := d.insertAll a index source
    (result.toOption.bind reported, d)
  | .tryAddAll source, d =>
    let (result, d) := d.tryAddAll a source
    (result.toOption.bind reported, d)
  | .addAll source, d =>
    let (result, d) := d.addAll a source
    (if source.fault.isNone then panicked result else none, d)
  | .ensureCapacity capacity, d =>
    let (result, d) := d.ensureCapacity a capacity; (reported result, d)
  | .tryTrimToSize, d => let (result, d) := d.tryTrimToSize a; (reported result, d)
  | .cursorSet c x, d => let (result, d) := c.set x d; (reported result, d)
  | .cursorAdd c x, d => let (result, _, d) := c.add a x d; (reported result, d)
  | .cursorRemove c, d => let (result, _, d) := c.remove d; (reported result, d)

/-- The slots that the operation needs are not to be had. -/
def Overflows (a : Allocator) (d : Deque α) : Request α → Prop
  | .tryPushFront _ | .tryPushBack _ | .pushFront _ | .pushBack _ => d.Exhausted a (d.length + 1)
  | .insert index _ => index ≤ d.length ∧ d.Exhausted a (d.length + 1)
  | .insertAll index source =>
    index ≤ d.length ∧ source.fault = none ∧ d.Exhausted a (d.length + source.values.length)
  | .tryAddAll source | .addAll source =>
    source.fault = none ∧ d.Exhausted a (d.length + source.values.length)
  | .ensureCapacity capacity => d.Exhausted a capacity
  | .tryTrimToSize => d.length + 1 < d.slotCount ∧ a.grants (d.length + 1) = false
  | .cursorAdd c _ => c.agrees d = true ∧ d.Exhausted a (d.length + 1)
  | .removeAt _ | .set .. | .cursorSet .. | .cursorRemove _ => False

/-- The cursor with which something is inserted. -/
def inserting? : Request α → Option TwoWayCursor
  | .cursorAdd c _ => some c
  | _ => none

end Request

/-- How a request on `d` can end that overflows exactly if `overflow` holds. -/
inductive Outcome (d : Deque α) (overflow : Prop) : Option Error × Deque α → Prop where
  | done {d' : Deque α} (fits : ¬overflow) : Outcome d overflow (none, d')
  | overflowed {e : Error} (full : overflow) (he : Deque.NoRoom e) : Outcome d overflow (some e, d)
  | refused {e : Error} (fits : ¬overflow) (he : ¬Deque.NoRoom e) : Outcome d overflow (some e, d)

theorem Outcome.unchanged {d : Deque α} {overflow : Prop} {result : Option Error × Deque α}
    (h : Outcome d overflow result) {e : Error} (he : result.1 = some e) : result.2 = d := by
  cases h with
  | done fits => contradiction
  | overflowed full he => rfl
  | refused fits he => rfl

theorem Outcome.overflow_iff {d : Deque α} {overflow : Prop} {result : Option Error × Deque α}
    (h : Outcome d overflow result) :
    (∃ requested, result.1 = some (.capacityOverflow requested)) ↔ overflow := by
  cases h with
  | done fits => exact iff_of_false (by rintro ⟨_, ⟨⟩⟩) fits
  | overflowed full he =>
      obtain ⟨requested, rfl⟩ := he
      exact iff_of_true ⟨requested, rfl⟩ full
  | refused fits he =>
      refine iff_of_false ?_ fits
      rintro ⟨requested, ⟨⟩⟩
      exact he ⟨requested, rfl⟩

namespace Deque

variable {a : Allocator} {d : Deque α} {xs : List α} {x : α} {index : Nat}

theorem not_noRoom_outOfBounds (d : Deque α) (index : Nat) : ¬NoRoom (d.outOfBounds index) := by
  rintro ⟨_, ⟨⟩⟩

/-- What succeeds with room and is refused without. -/
theorem Holds.outcome_of_room (h : d.Holds xs) {result : Except Error β × Deque α} {count : Nat}
    (granted : d.Room a count → ∃ y d', result = (.ok y, d'))
    (refused : ¬d.Room a count → ∃ e, NoRoom e ∧ result = (.error e, d)) :
    Outcome d (d.Exhausted a count) (reported result.1, result.2) := by
  rw [h.exhausted_iff]
  by_cases room : d.Room a count
  · obtain ⟨y, d', done⟩ := granted room
    rw [done]
    exact .done (not_not_intro room)
  · obtain ⟨e, he, same⟩ := refused room
    rw [same]
    exact .overflowed room he

theorem Holds.tryPushFront_outcome (h : d.Holds xs) (x : α) :
    Outcome d (d.Exhausted a (d.length + 1))
      (reported (d.tryPushFront a x).1, (d.tryPushFront a x).2) := by
  rw [h.length_eq]
  refine h.outcome_of_room ?_ h.tryPushFront_refused
  intro room
  obtain ⟨d', pushed, -⟩ := h.tryPushFront (x := x) room
  exact ⟨(), d', pushed⟩

theorem Holds.tryPushBack_outcome (h : d.Holds xs) (x : α) :
    Outcome d (d.Exhausted a (d.length + 1))
      (reported (d.tryPushBack a x).1, (d.tryPushBack a x).2) := by
  rw [h.length_eq]
  refine h.outcome_of_room ?_ h.tryPushBack_refused
  intro room
  obtain ⟨d', pushed, -⟩ := h.tryPushBack (x := x) room
  exact ⟨(), d', pushed⟩

/-- An error that becomes a fault is still the same error. -/
theorem panicked_orFault (result : Except Error β × Deque α) :
    panicked (orFault result).1 = reported result.1 ∧ (orFault result).2 = result.2 := by
  obtain ⟨_ | _, d⟩ := result
  · exact ⟨rfl, rfl⟩
  · exact ⟨rfl, rfl⟩

theorem Holds.insert_outcome (h : d.Holds xs) (index : Nat) (x : α) :
    Outcome d (index ≤ d.length ∧ d.Exhausted a (d.length + 1))
      (reported (d.insert a index x).1, (d.insert a index x).2) := by
  by_cases inside : index ≤ xs.length
  · rw [h.length_eq, and_iff_right inside]
    refine h.outcome_of_room ?_ (h.insert_refused inside)
    intro room
    obtain ⟨d', inserted, -⟩ := h.insert (x := x) inside room
    exact ⟨(), d', inserted⟩
  · rw [h.insert_outOfBounds (Nat.lt_of_not_le inside), ← h.length_eq]
    exact .refused (fun full => inside (h.length_eq ▸ full.1)) (d.not_noRoom_outOfBounds index)

theorem delete_of_slot {p : Nat} (hp : d.slot p = some x) :
    ∃ closed d', d.delete p = (some (x, closed), d') := by
  simp only [Deque.delete_eq, hp]
  split
  · exact ⟨_, _, rfl⟩
  · exact ⟨_, _, rfl⟩

theorem Holds.removeAt_outcome (h : d.Holds xs) (index : Nat) :
    Outcome d False (reported (d.removeAt index).1, (d.removeAt index).2) := by
  rw [Deque.removeAt_eq, h.length_eq]
  by_cases inside : index < xs.length
  · obtain ⟨closed, d', deleted, -⟩ := h.delete inside
    rw [if_pos inside, deleted]
    exact .done id
  · rw [if_neg inside]
    exact .refused id (d.not_noRoom_outOfBounds index)

theorem Holds.set_outcome (h : d.Holds xs) (index : Nat) (x : α) :
    Outcome d False (reported (d.set index x).1, (d.set index x).2) := by
  rw [Deque.set_eq, h.length_eq]
  by_cases inside : index < xs.length
  · obtain ⟨d', replaced, -⟩ := h.replaceSlot (x := x) (Nat.lt_trans inside h.length_lt)
    rw [List.getElem?_eq_getElem inside] at replaced
    rw [if_pos inside, replaced]
    exact .done id
  · rw [if_neg inside]
    exact .refused id (d.not_noRoom_outOfBounds index)

theorem Holds.insertRange_outcome (h : d.Holds xs) (inside : index ≤ xs.length) (ys : List α) :
    Outcome d (d.Exhausted a (d.length + ys.length))
      (reported (d.insertRange a index ys).1, (d.insertRange a index ys).2) := by
  rw [h.length_eq]
  refine h.outcome_of_room ?_ (h.insertRange_refused index)
  intro room
  obtain ⟨d', inserted, -⟩ := h.insertRange ys inside room
  exact ⟨_, d', inserted⟩

theorem Holds.ensureCapacity_outcome (h : d.Holds xs) (hw : d.slotCount ≤ wordMax)
    (capacity : Nat) :
    Outcome d (d.Exhausted a capacity)
      (reported (d.ensureCapacity a capacity).1, (d.ensureCapacity a capacity).2) := by
  by_cases room : capacity < wordMax ∧ d.Room a capacity
  · obtain ⟨d', enlarged, -⟩ := h.ensureCapacity room.1 room.2
    rw [enlarged]
    exact .done fun full => h.exhausted_iff.1 full room.2
  · obtain ⟨e, he, refused⟩ := ensureCapacity_of_not_room room
    rw [refused]
    refine .overflowed ?_ he
    rw [Classical.not_and_iff_not_or_not] at room
    obtain word | missing := room
    · have bound := a.maxSlots_le
      have small : addressableBytes < wordMax := by decide
      exact ⟨h.capacity_lt_iff.2 (by omega), .inl (by omega)⟩
    · exact h.exhausted_iff.2 missing

theorem tryTrimToSize_outcome (a : Allocator) (d : Deque α) :
    Outcome d (d.length + 1 < d.slotCount ∧ a.grants (d.length + 1) = false)
      (reported (d.tryTrimToSize a).1, (d.tryTrimToSize a).2) := by
  rw [Deque.tryTrimToSize_eq]
  by_cases larger : d.length + 1 < d.slotCount
  · rw [if_pos larger, relayout_eq]
    cases granted : a.grants (d.length + 1) with
    | true => exact .done (by simp)
    | false => exact .overflowed ⟨larger, rfl⟩ ⟨_, rfl⟩
  · rw [if_neg larger]
    exact .done fun full => larger full.1

end Deque

namespace TwoWayCursor

variable {a : Allocator} {c : TwoWayCursor} {d : Deque α}

theorem set_outcome (c : TwoWayCursor) (d : Deque α) (x : α) :
    Outcome d False (reported (c.set x d).1, (c.set x d).2) := by
  rw [TwoWayCursor.set]
  cases c.last with
  | none => exact .refused id (by rintro ⟨_, ⟨⟩⟩)
  | some p =>
      cases c.agrees d with
      | false => exact .refused id (by rintro ⟨_, ⟨⟩⟩)
      | true =>
          simp only [Deque.replaceSlot, if_true]
          cases d.slot p with
          | none => exact .refused id (by rintro ⟨_, ⟨⟩⟩)
          | some y => exact .done id

theorem remove_outcome (c : TwoWayCursor) (d : Deque α) :
    Outcome d False (reported (c.remove d).1, (c.remove d).2.2) := by
  rw [TwoWayCursor.remove_eq]
  cases c.last with
  | none => exact .refused id (by rintro ⟨_, ⟨⟩⟩)
  | some p =>
      cases c.agrees d with
      | false => exact .refused id (by rintro ⟨_, ⟨⟩⟩)
      | true =>
          cases here : d.slot p with
          | none =>
              simp only [Deque.delete_of_free here, if_true]
              exact .refused id (by rintro ⟨_, ⟨⟩⟩)
          | some y =>
              obtain ⟨closed, d', deleted⟩ := Deque.delete_of_slot here
              simp only [deleted, if_true]
              exact .done id

/-- Where the cursor stands decides whether the insertion finds the buffer full. -/
theorem Reached.add_outcome (reached : Reached.{v, u} c) (h : d.WellFormed) (x : α) :
    Outcome d (c.agrees d = true ∧ d.Exhausted a (d.length + 1))
      (reported (c.add a x d).1, (c.add a x d).2.2) := by
  rw [TwoWayCursor.add_eq]
  cases agrees : c.agrees d with
  | false => exact .refused (by simp) (by rintro ⟨_, ⟨⟩⟩)
  | true =>
      obtain ⟨β, g, e, on, rfl⟩ := reached.placed
      obtain ⟨here, same⟩ := on.on_of_agrees h.holds agrees
      have place : (g.cursorOn e).position = d.position g.place := by rw [same]; rfl
      rw [h.holds.exhausted_iff, h.holds.length_eq, place]
      by_cases room : d.Room a (d.toList.length + 1)
      · obtain ⟨shift, d', inserted, -⟩ := h.holds.insertAt (x := x) here.place_le room
        simp only [inserted, if_true]
        exact .done fun full => full.2 room
      · obtain ⟨e, he, refused⟩ := h.holds.insertAt_refused (x := x) here.place_le room
        simp only [refused, if_true]
        exact .overflowed ⟨trivial, room⟩ he

end TwoWayCursor

namespace Request

variable {a : Allocator} {d : Deque α}

theorem run_outcome (h : d.WellFormed) (hw : d.slotCount ≤ wordMax) (r : Request α)
    (hc : ∀ c, r.inserting? = some c → TwoWayCursor.Reached.{v, u} c) :
    Outcome d (r.Overflows a d) (r.run a d) := by
  have holds := h.holds
  cases r with
  | tryPushFront x => exact holds.tryPushFront_outcome x
  | tryPushBack x => exact holds.tryPushBack_outcome x
  | pushFront x =>
      have pushed := holds.tryPushFront_outcome (a := a) x
      rw [← (Deque.panicked_orFault _).1, ← (Deque.panicked_orFault _).2] at pushed
      exact pushed
  | pushBack x =>
      have pushed := holds.tryPushBack_outcome (a := a) x
      rw [← (Deque.panicked_orFault _).1, ← (Deque.panicked_orFault _).2] at pushed
      exact pushed
  | insert index x => exact holds.insert_outcome index x
  | removeAt index => exact holds.removeAt_outcome index
  | set index x => exact holds.set_outcome index x
  | insertAll index source =>
      rw [run, Overflows, Deque.insertAll_eq]
      by_cases inside : index ≤ d.length
      · obtain ⟨ys, _ | fault⟩ := source
        · have inserted := holds.insertRange_outcome (a := a) (holds.length_eq ▸ inside) ys
          simpa [inside, Nat.not_lt.2 inside, Trace.complete, Except.toOption] using inserted
        · rw [if_neg (Nat.not_lt.2 inside)]
          exact .done (by simp)
      · rw [if_pos (Nat.lt_of_not_le inside)]
        exact .refused (fun full => inside full.1) (d.not_noRoom_outOfBounds index)
  | tryAddAll source =>
      rw [run, Overflows, Deque.tryAddAll_eq]
      obtain ⟨ys, _ | fault⟩ := source
      · have added := holds.insertRange_outcome (a := a) (Nat.le_of_eq holds.length_eq) ys
        simpa [Trace.complete, Except.toOption] using added
      · exact .done (by simp)
  | addAll source =>
      rw [run, Overflows, Deque.addAll, Deque.tryAddAll_eq]
      obtain ⟨ys, _ | fault⟩ := source
      · have added := holds.insertRange_outcome (a := a) (Nat.le_of_eq holds.length_eq) ys
        rw [← (Deque.panicked_orFault _).1, ← (Deque.panicked_orFault _).2] at added
        simpa [Trace.complete] using added
      · exact .done (by simp)
  | ensureCapacity capacity => exact holds.ensureCapacity_outcome hw capacity
  | tryTrimToSize => exact d.tryTrimToSize_outcome a
  | cursorSet c x => exact c.set_outcome d x
  | cursorAdd c x => exact (hc c rfl).add_outcome h x
  | cursorRemove c => exact c.remove_outcome d

/-- An operation that ends with an error has changed neither a slot nor an end of the deque. The
error says that slots are missing exactly if the deque cannot have those that the operation needs.
Slots are counted in machine words. -/
theorem run_atomic (h : d.WellFormed) (hw : d.slotCount ≤ wordMax) (r : Request α)
    (hc : ∀ c, r.inserting? = some c → TwoWayCursor.Reached.{v, u} c) :
    (∀ e, (r.run a d).1 = some e → (r.run a d).2 = d) ∧
      ((∃ requested, (r.run a d).1 = some (.capacityOverflow requested)) ↔ r.Overflows a d) := by
  have outcome := run_outcome (a := a) h hw r hc
  constructor
  · intro e he
    exact outcome.unchanged he
  · exact outcome.overflow_iff

/-- A full buffer that wraps, a cursor in its middle, and an allocator that refuses the larger
buffer. -/
theorem run_atomic_refused :
    let d : Deque Nat := ⟨#[some 2, none, some 1], 2, 1⟩
    let a := Allocator.bounded 8 5
    let r : Request Nat := .cursorAdd ⟨0, 2, 1, 3, none⟩ 9
    d.WellFormed ∧ d.slotCount ≤ wordMax ∧
      (∀ c, r.inserting? = some c → TwoWayCursor.Reached.{0, 0} c) ∧
      (∀ e, (r.run a d).1 = some e → (r.run a d).2 = d) ∧
      ((∃ requested, (r.run a d).1 = some (.capacityOverflow requested)) ↔ r.Overflows a d) := by
  intro d a r
  have ordered : d.WellFormed := Deque.isWellFormed_iff.1 (by decide)
  have reached : ∀ c, r.inserting? = some c → TwoWayCursor.Reached.{0, 0} c := by
    rintro c ⟨⟩
    exact .setUp ordered (show d.cursorAt 1 = .ok _ from rfl)
  exact ⟨ordered, by decide, reached, run_atomic ordered (by decide) r reached⟩

/-- In a buffer of one slot an addition at the front does not move `head`. -/
example :
    (Request.tryPushFront 7).run (.bounded 8 1) ⟨#[none], 0, 0⟩ =
      (some (.capacityOverflow 4), ⟨#[none], 0, 0⟩) := by
  decide

end Request

end RingDeque
