import RingDeque.Proofs.StaleCursor

/-!
# What a cursor notices

A cursor whose deque was changed by others should report a conflict on its next step rather than
return another element than the one that it stood in front of. It keeps no count of the changes, so
it can only tell by what it remembers.

A two-way cursor remembers the ends of the deque and the number of slots. It notices every change of
these, and with them every change in the number of elements. It does not notice changes that cancel
out there: when one element was removed at the back and another added in its place, it returns the
new one. A one-way cursor remembers a slot, and all that it notices is that this slot is empty now.
A single removal in the middle moves another element there.

`Change` is what others may have done, and `Deque.after` the deque that any sequence of this leaves
behind. The theorem says for both kinds of cursors, after whatever calls, exactly when the next
element is the right one or a conflict is reported.
-/

namespace RingDeque

variable {σ : Type u} {α : Type v}

/-- A change that is not made through the cursor in question, but by a call on the deque or on
another cursor. -/
inductive Change (σ : Type u) (α : Type v) where
  | update (a : Allocator) (u : Update σ α)
  | oneWay (c : OneWayCursor) (call : OneWayCursor.Call σ α)
  | twoWay (c : TwoWayCursor) (reached : TwoWayCursor.Reached.{u, v} c)
      (call : TwoWayCursor.Call σ α)

/-- The deque that the change leaves behind. -/
def Change.run : Change σ α → Deque α → Deque α
  | .update a u, d => u.run a d
  | .oneWay c call, d => (c.call call d).2.2
  | .twoWay c _ call, d => (c.call call d).2.2

/-- The deque after these changes. -/
def Deque.after (d : Deque α) : List (Change σ α) → Deque α
  | [] => d
  | change :: changes => (change.run d).after changes

/-- The answer of a cursor is the one that it gives on the undisturbed deque, or it reports a
conflict. -/
def FailsFast (undisturbed answer : Except Error α) : Prop :=
  answer = .error .concurrentModification ∨ answer = undisturbed

namespace Deque

variable {d : Deque α}

theorem WellFormed.change (h : d.WellFormed) (change : Change σ α) : (change.run d).WellFormed := by
  cases change with
  | update a u => exact h.update u
  | oneWay c call => exact c.wellFormed_call h call
  | twoWay c reached call =>
      obtain ⟨-, unchanged⟩ | ⟨ordered, -⟩ := reached.call_harmless h call
      · rw [Change.run, unchanged]
        exact h
      · exact ordered

theorem WellFormed.after (h : d.WellFormed) (changes : List (Change σ α)) :
    (d.after changes).WellFormed := by
  induction changes generalizing d with
  | nil => exact h
  | cons change changes ih => exact ih (h.change change)

end Deque

namespace TwoWayCursor

variable {c : TwoWayCursor} {d : Deque α}

theorem agrees_eq_false_iff :
    c.agrees d = false ↔ d.head ≠ c.start ∨ d.tail ≠ c.stop ∨ d.slotCount ≠ c.slotCount := by
  rw [agrees, Bool.and_eq_false_iff, Bool.and_eq_false_iff, or_assoc]
  simp only [beq_eq_false_iff_ne]

theorem next_of_not_agrees (ahead : c.hasNext = true) (h : c.agrees d = false) :
    (c.next d).1 = .error .concurrentModification := by
  have stop : c.position ≠ c.stop := bne_iff_ne.1 ahead
  rw [next_eq, if_neg stop, h]
  rfl

end TwoWayCursor

namespace Gap

variable {g : Gap α} {d d' : Deque α}

theorem On.place_lt (h : g.On d) (ahead : (g.cursorOn d).hasNext = true) :
    g.place < g.list.length := by
  rw [h.hasNext] at ahead
  exact of_decide_eq_true ahead

/-- On a deque with which it agrees the cursor returns what is there now. -/
theorem On.next_of_agrees (h : g.On d) (h' : d'.WellFormed)
    (agrees : (g.cursorOn d).agrees d' = true) :
    ((g.cursorOn d).next d').1 = element ⟨d'.toList, g.place, g.last⟩ g.place := by
  obtain ⟨here, same⟩ := h.on_of_agrees h'.holds agrees
  obtain ⟨answer, -⟩ := here.next
  rw [same, answer]

/-- The ends and the number of slots decide how many elements there are. -/
theorem On.length_of_agrees (h : g.On d) (h' : d'.WellFormed)
    (agrees : (g.cursorOn d).agrees d' = true) :
    d'.toList.length = g.list.length ∧ d'.slotCount = d.slotCount := by
  simp only [TwoWayCursor.agrees, Bool.and_eq_true, beq_iff_eq, start_cursorOn, stop_cursorOn,
    slotCount_cursorOn] at agrees
  obtain ⟨⟨head, tail⟩, size⟩ := agrees
  refine ⟨?_, size⟩
  calc
    d'.toList.length = d'.length := h'.holds.length_eq.symm
    _ = d.length := by rw [Deque.length, Deque.length, head, tail, size]
    _ = g.list.length := h.holds.length_eq

theorem On.not_agrees (h : g.On d) (h' : d'.WellFormed)
    (changed : d'.toList.length ≠ d.toList.length ∨ d'.slotCount ≠ d.slotCount) :
    (g.cursorOn d).agrees d' = false := by
  cases agrees : (g.cursorOn d).agrees d' with
  | false => rfl
  | true =>
      obtain ⟨length, size⟩ := h.length_of_agrees h' agrees
      rw [← h.holds.toList_eq] at length
      cases changed with
      | inl other_length => exact absurd length other_length
      | inr other_size => exact absurd size other_size

theorem On.failsFast_iff (h : g.On d) (h' : d'.WellFormed)
    (ahead : (g.cursorOn d).hasNext = true) :
    FailsFast ((g.cursorOn d).next d).1 ((g.cursorOn d).next d').1 ↔
      (d'.head ≠ d.head ∨ d'.tail ≠ d.tail ∨ d'.slotCount ≠ d.slotCount) ∨
        d'.toList[g.place]? = d.toList[g.place]? := by
  have differs : (g.cursorOn d).agrees d' = false ↔
      d'.head ≠ d.head ∨ d'.tail ≠ d.tail ∨ d'.slotCount ≠ d.slotCount :=
    TwoWayCursor.agrees_eq_false_iff
  rw [← differs]
  cases agrees : (g.cursorOn d).agrees d' with
  | false =>
      have noticed := TwoWayCursor.next_of_not_agrees ahead agrees
      exact iff_of_true (.inl noticed) (.inl rfl)
  | true =>
      have inside := h.place_lt ahead
      have inside' : g.place < d'.toList.length := by
        rwa [(h.length_of_agrees h' agrees).1]
      have before : ((g.cursorOn d).next d).1 = .ok g.list[g.place] := by
        rw [h.next.1, element_of_lt inside]
      have now : ((g.cursorOn d).next d').1 = .ok d'.toList[g.place] := by
        rw [h.next_of_agrees h' agrees]
        exact element_of_lt (g := ⟨d'.toList, g.place, g.last⟩) inside'
      rw [FailsFast, before, now, h.holds.toList_eq, List.getElem?_eq_getElem inside,
        List.getElem?_eq_getElem inside']
      simp

end Gap

namespace Pass

variable {p : Pass α} {c : OneWayCursor} {d d' : Deque α}

theorem On.failsFast_iff (h : p.On c d) (ahead : c.hasNext = true) :
    FailsFast (c.next d).1 (c.next d').1 ↔
      d'.slot c.position = none ∨ d'.slot c.position = d.slot c.position := by
  have some_left : 0 < c.remaining := of_decide_eq_true ahead
  have more : p.ahead ≠ [] := by
    intro done
    rw [h.remaining_eq, done] at some_left
    contradiction
  obtain ⟨x, xs, hp⟩ := List.exists_cons_of_ne_nil more
  have here : d.slot c.position = some x := by
    rw [h.position_eq more]
    exact h.slot_slotAhead hp
  rw [FailsFast, OneWayCursor.next_eq, if_neg (Nat.ne_of_gt some_left), OneWayCursor.next_eq,
    if_neg (Nat.ne_of_gt some_left), here]
  cases d'.slot c.position with
  | none => simp
  | some y => simp

end Pass

/-- A cursor was set up on a deque in order and called any number of times. Then others changed the
deque in any way, and now the cursor is asked for the next element. A two-way cursor fails to notice
that this is another one exactly if both ends and the number of slots are as they were and another
element has the same index now; so it notices every change in the number of elements. A one-way
cursor fails to notice exactly if another element is in the same slot. -/
theorem Deque.WellFormed.next_failsFast_iff {d₀ : Deque α} (h : d₀.WellFormed) :
    (∀ index ≤ d₀.length, ∃ c₀, d₀.cursorAt index = .ok c₀ ∧
      ∀ (calls : List (TwoWayCursor.Call σ α)) (changes : List (Change σ α)),
        let (_, c, d) := Gap.sideBySide calls (⟨d₀.toList, index, none⟩, c₀, d₀)
        let d' := d.after changes
        c.hasNext = true →
          (FailsFast (c.next d).1 (c.next d').1 ↔
            (d'.head ≠ d.head ∨ d'.tail ≠ d.tail ∨ d'.slotCount ≠ d.slotCount) ∨
              d'.toList[c.nextIndex]? = d.toList[c.nextIndex]?) ∧
          (d'.toList.length ≠ d.toList.length ∨ d'.slotCount ≠ d.slotCount →
            (c.next d').1 = .error .concurrentModification)) ∧
    ∀ (direction : Direction) (calls : List (OneWayCursor.Call σ α))
      (changes : List (Change σ α)),
      let start : Pass α := ⟨[], none, direction.arrange d₀.toList, []⟩
      let (_, c, d) := Pass.sideBySide calls (start, .start direction d₀, d₀)
      let d' := d.after changes
      c.hasNext = true →
        (FailsFast (c.next d).1 (c.next d').1 ↔
          d'.slot c.position = none ∨ d'.slot c.position = d.slot c.position) := by
  constructor
  · intro index inside
    obtain ⟨start, answer⟩ := Gap.on_cursorAt h inside
    refine ⟨_, answer, ?_⟩
    intro calls changes
    obtain ⟨g, d, run, on⟩ := start.sideBySide calls
    rw [run]
    intro ahead
    have ordered : (d.after changes).WellFormed := on.holds.wellFormed.after changes
    constructor
    · rw [on.nextIndex]
      exact on.failsFast_iff ordered ahead
    · intro changed
      exact TwoWayCursor.next_of_not_agrees ahead (on.not_agrees ordered changed)
  · intro direction calls changes start
    obtain ⟨p, c, d, run, -, on, -⟩ := (Pass.on_start h direction).sideBySide calls
    rw [run]
    intro ahead
    exact on.failsFast_iff ahead

/-- The theorem at a deque of one element, which others remove and replace. -/
theorem Deque.WellFormed.next_failsFast_iff_replaced :
    let d : Deque Nat := ⟨#[some 1, none], 0, 1⟩
    let a := Allocator.bounded 8 4
    let changes : List (Change Unit Nat) :=
      [.update a (.operation .popBack), .update a (.tryPushBack 2)]
    d.WellFormed ∧ 0 ≤ d.length ∧ ∃ c, d.cursorAt 0 = .ok c ∧ c.hasNext = true ∧
      (FailsFast (c.next d).1 (c.next (d.after changes)).1 ↔
        ((d.after changes).head ≠ d.head ∨ (d.after changes).tail ≠ d.tail ∨
            (d.after changes).slotCount ≠ d.slotCount) ∨
          (d.after changes).toList[c.nextIndex]? = d.toList[c.nextIndex]?) := by
  intro d a changes
  have ordered : d.WellFormed := Deque.isWellFormed_iff.1 (by decide)
  obtain ⟨c, answer, exact_when⟩ :=
    (next_failsFast_iff (σ := Unit) ordered).1 0 (Nat.zero_le _)
  have ahead : c.hasNext = true := by
    cases answer
    rfl
  exact ⟨ordered, Nat.zero_le _, c, answer, ahead, (exact_when [] changes ahead).1⟩

/-- Neither kind of cursor fails fast. The two-way cursor returns the element that took the place of
its next one at the back, and the one-way cursor returns the element that moved up when its next one
was removed. -/
theorem Deque.WellFormed.next_not_failsFast :
    let a := Allocator.bounded 8 4
    (∃ (d : Deque Nat) (c : TwoWayCursor) (changes : List (Change Unit Nat)),
      d.WellFormed ∧ d.cursorAt 0 = .ok c ∧
        changes = [.update a (.operation .popBack), .update a (.tryPushBack 2)] ∧
        c.hasNext = true ∧ (c.next d).1 = .ok 1 ∧ (c.next (d.after changes)).1 = .ok 2 ∧
        ¬FailsFast (c.next d).1 (c.next (d.after changes)).1) ∧
    ∃ (d : Deque Nat) (c : OneWayCursor) (changes : List (Change Unit Nat)),
      d.WellFormed ∧ (d.cursor.next d) = (.ok 1, c) ∧
        changes = [.update a (.operation (.removeAt 1))] ∧
        c.hasNext = true ∧ (c.next d).1 = .ok 2 ∧ (c.next (d.after changes)).1 = .ok 3 ∧
        ¬FailsFast (c.next d).1 (c.next (d.after changes)).1 := by
  have wrong {x y : Nat} (h : x ≠ y) : ¬FailsFast (.ok x) (.ok y) := by
    rintro (conflict | same)
    · contradiction
    · exact h (Except.ok.inj same).symm
  intro a
  constructor
  · refine ⟨⟨#[some 1, none], 0, 1⟩, ⟨0, 0, 1, 2, none⟩, _, Deque.isWellFormed_iff.1 (by decide),
      rfl,
      rfl, rfl, rfl, rfl, ?_⟩
    exact wrong (by decide : 1 ≠ 2)
  · refine ⟨⟨#[some 1, some 2, some 3, none], 0, 3⟩, ⟨.forward, 1, 2, some 0⟩, _,
      Deque.isWellFormed_iff.1 (by decide), rfl, rfl, rfl, rfl, rfl, ?_⟩
    exact wrong (by decide : 2 ≠ 3)

end RingDeque
