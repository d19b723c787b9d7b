import RingDeque.Proofs.GapCursor
import RingDeque.Proofs.PassCursor
import RingDeque.Proofs.Update

/-!
# What a program can reach

A program makes deques, changes them, sets up cursors and uses each cursor on any deque, also on one
that has changed since and on one that it was not set up for. `World` is what the program has at
some moment, `Action` what it can do next. Errors and faults end an action but not the program,
which goes on with what the action left behind.

In every world that can be reached every deque is in order. The invariant has to speak of the
two-way cursors too: such a cursor inserts where it stands, so it must stand in a gap. A one-way
cursor only reads and removes, and removing from a slot does no harm whatever the slot is.
-/

namespace RingDeque

variable {σ : Type u} {α : Type v}

/-! ### The order of a deque in numbers -/

/-- What it means for a deque to be in order, counted modulo the number of slots. -/
structure Deque.InOrder (d : Deque α) : Prop where
  slotCount_pos : 1 ≤ d.slotCount
  head_lt : d.head < d.slotCount
  tail_lt : d.tail < d.slotCount
  length_eq : d.length = (d.tail + d.slotCount - d.head) % d.slotCount
  occupied_iff : ∀ p < d.slotCount,
    (d.slot p).isSome ↔ (p + d.slotCount - d.head) % d.slotCount < d.length
  slot_tail : d.slot d.tail = none
  length_lt : d.length < d.slotCount
  head_eq_tail_iff : d.head = d.tail ↔ d.toList = []

theorem Deque.Holds.head_eq_tail_iff {d : Deque α} {xs : List α} (h : d.Holds xs) :
    d.head = d.tail ↔ xs = [] := by
  have front : Circle.forward d.head 0 d.slotCount = d.head := Circle.forward_zero h.head_lt
  have distinct := Circle.forward_inj (h := d.head) h.slotCount_pos h.length_lt
  rw [front, ← h.tail_eq, eq_comm (a := 0), List.length_eq_zero_iff] at distinct
  exact distinct

theorem Deque.wellFormed_iff_inOrder {d : Deque α} : d.WellFormed ↔ d.InOrder := by
  constructor
  · intro h
    exact {
      slotCount_pos := h.holds.slotCount_pos
      head_lt := h.head_lt
      tail_lt := h.tail_lt
      length_eq := Circle.steps_eq_mod h.tail_lt
      occupied_iff p hp := by rw [h.isSome_slot_iff p hp, Circle.steps_eq_mod hp]
      slot_tail := h.holds.slot_tail
      length_lt := h.length_lt
      head_eq_tail_iff := h.holds.head_eq_tail_iff }
  · intro h
    refine ⟨h.head_lt, h.tail_lt, ?_⟩
    intro p hp
    rw [h.occupied_iff p hp, Circle.steps_eq_mod hp]

/-! ### Cursors on any deque -/

/-- The cursor stands in a gap between the elements of a deque in order. -/
def TwoWayCursor.Placed (α : Type v) (c : TwoWayCursor) : Prop :=
  ∃ (g : Gap α) (d : Deque α), g.On d ∧ c = g.cursorOn d

/-- A cursor knows both ends and the number of slots. So a deque with which it agrees has as many
elements as the one on which it last stood, in the same slots. -/
theorem Gap.On.on_of_agrees {β : Type w} {g : Gap β} {d : Deque β} {d' : Deque α} {xs : List α}
    (h : g.On d) (h' : d'.Holds xs) (agrees : (g.cursorOn d).agrees d' = true) :
    Gap.On ⟨xs, g.place, g.last⟩ d' ∧ g.cursorOn d = Gap.cursorOn ⟨xs, g.place, g.last⟩ d' := by
  simp only [TwoWayCursor.agrees, Bool.and_eq_true, beq_iff_eq, start_cursorOn, stop_cursorOn,
    slotCount_cursorOn] at agrees
  obtain ⟨⟨head, tail⟩, size⟩ := agrees
  have length : xs.length = g.list.length := by
    rw [← h'.length_eq, ← h.holds.length_eq, Deque.length, Deque.length, head, tail, size]
  have position : d'.position = d.position := Deque.position_congr head size
  constructor
  · exact ⟨h', by simpa only [length] using h.place_le, by simpa only [length] using h.last_near⟩
  · rw [cursorOn, cursorOn, position, head, tail, size]

namespace TwoWayCursor

variable {c : TwoWayCursor} {d : Deque α}

/-- A cursor that does not agree with the deque refuses to work on it. -/
theorem call_of_not_agrees (h : c.agrees d = false) (call : Call σ α) :
    (c.call call d).2 = (c, d) := by
  cases call with
  | next =>
      by_cases stop : c.position = c.stop
      · rw [TwoWayCursor.call, TwoWayCursor.next_eq, if_pos stop]
      · rw [TwoWayCursor.call, TwoWayCursor.next_eq, if_neg stop, h]
        rfl
  | previous =>
      by_cases start : c.position = c.start
      · rw [TwoWayCursor.call, TwoWayCursor.previous_eq, if_pos start]
      · rw [TwoWayCursor.call, TwoWayCursor.previous_eq, if_neg start, h]
        rfl
  | set x =>
      rw [TwoWayCursor.call, TwoWayCursor.set, h]
      cases c.last <;> rfl
  | remove =>
      rw [TwoWayCursor.call, TwoWayCursor.remove_eq, h]
      cases c.last <;> rfl
  | add a x =>
      rw [TwoWayCursor.call, TwoWayCursor.add_eq, h]
      rfl
  | forEachRemaining action s =>
      rw [TwoWayCursor.call, TwoWayCursor.forEachRemaining_eq, h]
      rfl
  | _ => rfl

theorem placed_of_cursorAt {index : Nat} (h : d.WellFormed) (hc : d.cursorAt index = .ok c) :
    c.Placed α := by
  by_cases inside : index ≤ d.length
  · obtain ⟨on, answer⟩ := Gap.on_cursorAt h inside
    rw [answer] at hc
    cases hc
    exact ⟨_, d, on, rfl⟩
  · rw [Deque.cursorAt_eq, if_pos (Nat.lt_of_not_le inside)] at hc
    contradiction

/-- Whatever the cursor is called to do, on whatever deque, it stands in a gap and the deque is in
order. -/
theorem Placed.call (h : c.Placed α) (hd : d.WellFormed) (call : Call σ α) :
    (c.call call d).2.1.Placed α ∧ (c.call call d).2.2.WellFormed := by
  obtain ⟨g, e, on, rfl⟩ := h
  cases agrees : (g.cursorOn e).agrees d with
  | false =>
      rw [call_of_not_agrees agrees]
      exact ⟨⟨g, e, on, rfl⟩, hd⟩
  | true =>
      obtain ⟨here, same⟩ := on.on_of_agrees hd.holds agrees
      obtain ⟨d', answer, after, -⟩ := here.call call
      rw [same, answer]
      exact ⟨⟨_, d', after, rfl⟩, after.holds.wellFormed⟩

end TwoWayCursor

/-- A one-way cursor that holds any slots at all leaves the deque in order. -/
theorem OneWayCursor.wellFormed_call {d : Deque α} (h : d.WellFormed) (c : OneWayCursor)
    (call : Call σ α) : (c.call call d).2.2.WellFormed := by
  cases call with
  | remove =>
      rw [OneWayCursor.call, OneWayCursor.remove_eq]
      cases c.last with
      | none => exact h
      | some p =>
          obtain hd' | ⟨k, hk, closed, d', hd', holds⟩ := h.holds.delete_any p
          · simpa only [hd'] using h
          · simpa only [hd'] using holds.wellFormed
  | _ => exact h

/-! ### Programs -/

theorem forall_mem_concat {β : Type u} {P : β → Prop} {ys : List β} {y : β} (h : ∀ x ∈ ys, P x)
    (hy : P y) : ∀ x ∈ ys ++ [y], P x := by
  rw [List.forall_mem_append, List.forall_mem_singleton]
  exact ⟨h, hy⟩

theorem forall_mem_set {β : Type u} {P : β → Prop} {ys : List β} {y : β} (h : ∀ x ∈ ys, P x)
    (hy : P y) (i : Nat) : ∀ x ∈ ys.set i y, P x := by
  intro x hx
  rcases List.mem_or_eq_of_mem_set hx with old | rfl
  · exact h x old
  · exact hy

/-- The deques and the cursors that a program has. -/
structure World (α : Type u) where
  deques : List (Deque α)
  oneWay : List OneWayCursor
  twoWay : List TwoWayCursor

/-- What a program can do. Deques and cursors are named by the order in which they were made. -/
inductive Action (σ : Type u) (α : Type v) where
  | make (a : Allocator) (origin : Origin α)
  | update (a : Allocator) (i : Nat) (u : Update σ α)
  | cloneDeque (i : Nat)
  | start (i : Nat) (direction : Direction)
  | cursorAt (i index : Nat)
  | cloneOneWay (j : Nat)
  | cloneTwoWay (j : Nat)
  | callOneWay (j i : Nat) (call : OneWayCursor.Call σ α)
  | callTwoWay (j i : Nat) (call : TwoWayCursor.Call σ α)

namespace World

/-- The world of a program that has not done anything. -/
def empty : World α := ⟨[], [], []⟩

/-- The world after the action, if it names what is there and what it makes can be made. -/
def step? (w : World α) : Action σ α → Option (World α)
  | .make a origin => (origin.make? a).map fun d => { w with deques := w.deques ++ [d] }
  | .update a i u => w.deques[i]?.map fun d => { w with deques := w.deques.set i (u.run a d) }
  | .cloneDeque i => w.deques[i]?.map fun d => { w with deques := w.deques ++ [d] }
  | .start i direction =>
    w.deques[i]?.map fun d => { w with oneWay := w.oneWay ++ [.start direction d] }
  | .cursorAt i index =>
    w.deques[i]?.bind fun d =>
      (d.cursorAt index).toOption.map fun c => { w with twoWay := w.twoWay ++ [c] }
  | .cloneOneWay j => w.oneWay[j]?.map fun c => { w with oneWay := w.oneWay ++ [c] }
  | .cloneTwoWay j => w.twoWay[j]?.map fun c => { w with twoWay := w.twoWay ++ [c] }
  | .callOneWay j i call =>
    w.oneWay[j]?.bind fun c => w.deques[i]?.map fun d =>
      let (c, d) := (c.call call d).2
      { w with deques := w.deques.set i d, oneWay := w.oneWay.set j c }
  | .callTwoWay j i call =>
    w.twoWay[j]?.bind fun c => w.deques[i]?.map fun d =>
      let (c, d) := (c.call call d).2
      { w with deques := w.deques.set i d, twoWay := w.twoWay.set j c }

/-- The world after a sequence of actions. -/
def run : List (Action σ α) → World α → World α
  | [], w => w
  | action :: actions, w => run actions ((w.step? action).getD w)

/-- Every deque is in order, and every two-way cursor stands in a gap. -/
structure Orderly (w : World α) : Prop where
  deques : ∀ d ∈ w.deques, d.WellFormed
  twoWay : ∀ c ∈ w.twoWay, c.Placed α

variable {w w' : World α} {d : Deque α} {c : TwoWayCursor} {i j : Nat}

theorem Orderly.deque (h : w.Orderly) (hd : w.deques[i]? = some d) : d.WellFormed :=
  h.deques d (List.mem_of_getElem? hd)

theorem Orderly.cursor (h : w.Orderly) (hc : w.twoWay[j]? = some c) : c.Placed α :=
  h.twoWay c (List.mem_of_getElem? hc)

/-- One action: what it makes is in order, and so is what it changes. -/
theorem Orderly.step? (h : w.Orderly) {action : Action σ α} (hw : w.step? action = some w') :
    w'.Orderly := by
  cases action with
  | make a origin =>
      obtain ⟨d, made, rfl⟩ := Option.map_eq_some_iff.1 hw
      exact ⟨forall_mem_concat h.deques (Deque.wellFormed_of_make? made), h.twoWay⟩
  | update a i u =>
      obtain ⟨d, there, rfl⟩ := Option.map_eq_some_iff.1 hw
      exact ⟨forall_mem_set h.deques ((h.deque there).update u) i, h.twoWay⟩
  | cloneDeque i =>
      obtain ⟨d, there, rfl⟩ := Option.map_eq_some_iff.1 hw
      exact ⟨forall_mem_concat h.deques (h.deque there), h.twoWay⟩
  | start i direction =>
      obtain ⟨d, there, rfl⟩ := Option.map_eq_some_iff.1 hw
      exact ⟨h.deques, h.twoWay⟩
  | cursorAt i index =>
      obtain ⟨d, there, rest⟩ := Option.bind_eq_some_iff.1 hw
      obtain ⟨c, made, rfl⟩ := Option.map_eq_some_iff.1 rest
      exact ⟨h.deques, forall_mem_concat h.twoWay
        (TwoWayCursor.placed_of_cursorAt (h.deque there) (eq_ok_of_toOption made))⟩
  | cloneOneWay j =>
      obtain ⟨c, there, rfl⟩ := Option.map_eq_some_iff.1 hw
      exact ⟨h.deques, h.twoWay⟩
  | cloneTwoWay j =>
      obtain ⟨c, there, rfl⟩ := Option.map_eq_some_iff.1 hw
      exact ⟨h.deques, forall_mem_concat h.twoWay (h.cursor there)⟩
  | callOneWay j i call =>
      obtain ⟨c, -, rest⟩ := Option.bind_eq_some_iff.1 hw
      obtain ⟨d, there, rfl⟩ := Option.map_eq_some_iff.1 rest
      exact ⟨forall_mem_set h.deques (c.wellFormed_call (h.deque there) call) i, h.twoWay⟩
  | callTwoWay j i call =>
      obtain ⟨c, placed, rest⟩ := Option.bind_eq_some_iff.1 hw
      obtain ⟨d, there, rfl⟩ := Option.map_eq_some_iff.1 rest
      obtain ⟨still, ordered⟩ := (h.cursor placed).call (h.deque there) call
      exact ⟨forall_mem_set h.deques ordered i, forall_mem_set h.twoWay still j⟩

theorem Orderly.run (h : w.Orderly) (actions : List (Action σ α)) : (w.run actions).Orderly := by
  induction actions generalizing w with
  | nil => exact h
  | cons action actions ih =>
      rw [World.run]
      apply ih
      cases hw : w.step? action with
      | none => exact h
      | some w' => exact h.step? hw

/-- However a program goes on, and whatever it is refused, each of its deques is in order. The check
of a deque tells exactly which deques are. -/
theorem run_inOrder (actions : List (Action σ α)) :
    (∀ d ∈ ((empty : World α).run actions).deques, d.InOrder) ∧
      ∀ d : Deque α, d.isWellFormed = true ↔ d.InOrder := by
  have start : (empty : World α).Orderly := ⟨by simp [empty], by simp [empty]⟩
  constructor
  · intro d hd
    exact Deque.wellFormed_iff_inOrder.1 ((start.run actions).deques d hd)
  · intro d
    rw [Deque.isWellFormed_iff, Deque.wellFormed_iff_inOrder]

/-- A refused addition, a cursor whose deque has changed, and a predicate that fails. -/
example :
    let a := Allocator.bounded 8 4
    let actions : List (Action Unit Nat) :=
      [.make a (.ofList [1, 2]), .cursorAt 0 1, .update a 0 (.tryPushBack 3),
        .update a 0 (.operation .popFront), .callTwoWay 0 0 (.add a 9),
        .update a 0 (.operation (.removeWhere (fun _ s => (.error .callback, s)) ()))]
    ((empty : World Nat).run actions).deques = [⟨#[none, some 2, none], 1, 2⟩] := by
  decide

end World

end RingDeque
