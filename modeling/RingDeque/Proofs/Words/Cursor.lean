import RingDeque.Proofs.Capacity
import RingDeque.Proofs.Words.Insertion

/-!
# Cursors on words

A one-way cursor adds and subtracts only at its own slot and counts down what it has left, so it is
enough that its slot is one of the buffer and that it has no more than one round to go. A two-way
cursor that agrees with a deque stands in a gap between its elements; its slots are slots of that
deque. Each kind is left in this state by every call, so what holds of one call holds of all the
calls of a conversation.
-/

namespace RingDeque

section Conversation

variable {γ : Type u} {κ : Type v} {ρ : Type w}

/-- The replies to a sequence of calls, and the state afterwards. -/
def callAll (call : γ → κ → ρ × κ) : List γ → κ → List ρ × κ
  | [], state => ([], state)
  | question :: questions, state =>
    let (reply, state) := call question state
    let (replies, state) := callAll call questions state
    (reply :: replies, state)

/-- `callAll` on words. -/
def callAllOnWords (call : γ → κ → Calculation (ρ × κ)) : List γ → κ → Calculation (List ρ × κ)
  | [], state => .result ([], state)
  | question :: questions, state =>
    (call question state).bind fun (reply, state) =>
    (callAllOnWords call questions state).bind fun (replies, state) =>
    .result (reply :: replies, state)

theorem computes_callAll (Inside : κ → Prop) {onWords : γ → κ → Calculation (ρ × κ)}
    {call : γ → κ → ρ × κ}
    (one : ∀ question state, Inside state →
      (onWords question state).Computes (call question state) ∧ Inside (call question state).2)
    {state : κ} (h : Inside state) (questions : List γ) :
    (callAllOnWords onWords questions state).Computes (callAll call questions state) := by
  induction questions generalizing state with
  | nil => exact .result _
  | cons question questions ih =>
      obtain ⟨computes, still⟩ := one question state h
      exact computes.bind ((ih still).bind (.result _))

end Conversation

variable {σ : Type u} {α : Type v}

/-! ### One-way cursors -/

namespace Direction

variable {p m bound : Nat}

/-- A step leads to a slot of the buffer or to a lower one. -/
theorem step_lt_of_le (direction : Direction) (hp : p < bound) (hm : m ≤ bound) :
    direction.step p m < bound := by
  cases direction with
  | forward =>
      rw [step_forward, Circle.next_eq]
      split <;> omega
  | backward =>
      rw [step_backward, Circle.prev_eq]
      split <;> omega

theorem step_lt (direction : Direction) (hp : p < m) : direction.step p m < m :=
  direction.step_lt_of_le hp (Nat.le_refl m)

theorem computes_step (direction : Direction) (hp : p < m) (hm : m < 2 ^ 63) :
    (direction.stepOnWords p m).Computes (direction.step p m) := by
  cases direction with
  | forward => exact Circle.computes_next hp hm
  | backward => exact Circle.computes_prev hp hm

end Direction

namespace OneWayCursor

variable {c : OneWayCursor} {d : Deque α} {p n : Nat}

/-- `call` on words. -/
def callOnWords :
    Call σ α → OneWayCursor × Deque α → Calculation (Reply σ α × OneWayCursor × Deque α)
  | .next, (c, d) => (c.nextOnWords d).bind fun (result, c) => .result (.element result, c, d)
  | .remove, (c, d) => (c.removeOnWords d).bind fun (result, c, d) =>
    .result (.element result, c, d)
  | .forEachRemaining action s, (c, d) =>
    (c.forEachRemainingOnWords action d s).bind fun ((result, c), s) =>
    .result (.visited result s, c, d)
  | .hasNext, (c, d) => .result (.flag c.hasNext, c, d)
  | .remaining, (c, d) => .result (.count c.remaining, c, d)

/-- The cursor's slot is one of the buffer, and it has no more elements left than there are
slots. -/
structure Inside (c : OneWayCursor) (d : Deque α) : Prop where
  position_lt : c.position < d.slotCount
  remaining_le : c.remaining ≤ d.slotCount

theorem inside_start (h : d.WellFormed) (direction : Direction) :
    (start direction d).Inside d := by
  rw [start_eq]
  refine ⟨?_, Nat.le_of_lt h.length_lt⟩
  cases direction with
  | forward => exact h.head_lt
  | backward => exact Circle.prev_lt h.tail_lt

theorem computes_start (h : d.WellFormed) (hm : d.slotCount < 2 ^ 63) (direction : Direction) :
    (startOnWords direction d).Computes (start direction d) := by
  have length := h.computes_length hm
  refine .of_inRange ?_ rfl
  cases direction with
  | forward => exact .bind (.result d.head) (.bind length (.result _))
  | backward => exact .bind (Circle.computes_prev h.tail_lt hm) (.bind length (.result _))

theorem Inside.next (h : c.Inside d) (hm : d.slotCount < 2 ^ 63) :
    (c.nextOnWords d).Computes (c.next d) ∧ (c.next d).2.Inside d := by
  have left := h.remaining_le
  constructor
  · refine .of_inRange ?_ rfl
    unfold nextOnWords
    split
    · exact .result _
    cases d.slot c.position with
    | none => exact .result _
    | some x =>
        refine .bind (c.direction.computes_step h.position_lt hm) ?_
        exact .sub (by omega) (by omega) (.result _)
  · rw [next_eq]
    split
    · exact h
    cases d.slot c.position with
    | none => exact h
    | some x => exact ⟨c.direction.step_lt h.position_lt, Nat.le_trans (Nat.sub_le ..) left⟩

theorem Inside.computes_follow (h : c.Inside d) (hm : d.slotCount < 2 ^ 63) (closed : Closed) :
    (c.followOnWords closed d.slotCount).Computes (c.follow closed d.slotCount) := by
  obtain ⟨direction, position, remaining, last⟩ := c
  refine .of_inRange ?_ rfl
  cases direction with
  | forward =>
      cases closed with
      | tail => exact .bind (Circle.computes_prev h.position_lt hm) (.result _)
      | head => exact .result _
  | backward =>
      cases closed with
      | tail => exact .result _
      | head => exact .bind (Circle.computes_next h.position_lt hm) (.result _)

theorem Inside.follow (h : c.Inside d) (closed : Closed) :
    (c.follow closed d.slotCount).Inside d := by
  obtain ⟨direction, position, remaining, last⟩ := c
  have next := Circle.next_lt h.position_lt
  have prev := Circle.prev_lt h.position_lt
  rw [follow_eq]
  cases direction with
  | forward =>
      cases closed with
      | tail => exact ⟨prev, h.remaining_le⟩
      | head => exact h
  | backward =>
      cases closed with
      | tail => exact h
      | head => exact ⟨next, h.remaining_le⟩

theorem Inside.remove (h : c.Inside d) (hd : d.WellFormed) (hm : d.slotCount < 2 ^ 63) :
    (c.removeOnWords d).Computes (c.remove d) ∧ (c.remove d).2.1.Inside (c.remove d).2.2 := by
  have here {d' : Deque α} (size : d'.slotCount = d.slotCount) :
      Inside { c with last := none } d' := ⟨size ▸ h.position_lt, size ▸ h.remaining_le⟩
  constructor
  · refine .of_inRange ?_ rfl
    unfold removeOnWords
    cases c.last with
    | none => exact .result _
    | some p =>
        have size := d.slotCount_delete p
        refine .bind (hd.computes_delete hm p) ?_
        rcases answer : d.delete p with ⟨_ | ⟨x, closed⟩, d'⟩
        · exact .result _
        · rw [answer] at size
          exact .bind ((here size).computes_follow (size ▸ hm) closed) (.result _)
  · rw [remove_eq]
    cases c.last with
    | none => exact h
    | some p =>
        have size := d.slotCount_delete p
        dsimp only
        rcases answer : d.delete p with ⟨_ | ⟨x, closed⟩, d'⟩
        · rw [answer] at size
          exact here size
        · rw [answer] at size
          exact (here size).follow closed

/-- From a slot of the buffer on the elements ahead can be counted. -/
theorem Inside.inRange_ahead (h : c.Inside d) (hd : d.WellFormed) (hm : d.slotCount < 2 ^ 63) :
    (c.aheadOnWords d).InRange := by
  have before := Circle.steps_lt hd.head_lt h.position_lt
  unfold aheadOnWords
  cases c.direction with
  | forward => exact (Circle.computes_steps h.position_lt hd.tail_lt hm).inRange
  | backward =>
      exact .bind (Circle.computes_steps hd.head_lt h.position_lt hm) (.add (by omega) (.result _))

theorem computes_visit (hm : d.slotCount < 2 ^ 63) (hp : p < d.slotCount) (n : Nat)
    (c : OneWayCursor) (action : Callback σ α Unit) (s : σ) :
    (visitOnWords action d n p c s).Computes (visit action d n p c s) := by
  refine .of_inRange ?_ rfl
  induction n generalizing p c s with
  | zero => exact .result _
  | succ n ih =>
      have step := c.direction.computes_step hp hm
      have inside := c.direction.step_lt hp
      unfold visitOnWords
      cases d.slot p with
      | none => exact .bind step (ih inside _ s)
      | some x =>
          dsimp only
          rcases action x s with ⟨fault | ⟨⟩, s'⟩
          · exact .result _
          · exact .bind step (ih inside _ s')

theorem Inside.visit (h : c.Inside d) (hp : p < d.slotCount) (action : Callback σ α Unit) (s : σ) :
    (visit action d n p c s).1.2.Inside d := by
  induction n generalizing p c s with
  | zero => exact ⟨hp, h.remaining_le⟩
  | succ n ih =>
      have marked : Inside { c with last := some p } d := ⟨h.position_lt, h.remaining_le⟩
      have inside := c.direction.step_lt hp
      rw [visit_succ]
      cases d.slot p with
      | none => exact ih marked inside s
      | some x =>
          dsimp only
          rcases action x s with ⟨fault | ⟨⟩, s'⟩
          · exact h
          · exact ih marked inside s'

/-- Once the elements ahead are counted, the rest of the way leads through the buffer. -/
theorem computes_forEachRemaining (counts : (c.aheadOnWords d).InRange) (hm : d.slotCount < 2 ^ 63)
    (action : Callback σ α Unit) (s : σ) :
    (c.forEachRemainingOnWords action d s).Computes (c.forEachRemaining action d s) := by
  have range : (c.forEachRemainingOnWords action d s).InRange := by
    unfold forEachRemainingOnWords
    dsimp only
    split
    · exact .result _
    refine .bind (.of_inRange counts rfl) ?_
    split
    · exact .result _
    · next agrees =>
        cases here : d.slot c.position with
        | none =>
            rw [here] at agrees
            exact absurd (Bool.true_or _) agrees
        | some x =>
            have position := Deque.lt_slotCount_of_slot here
            exact .bind (computes_visit hm position _ _ action s) (.result _)
  refine .of_inRange range ?_
  rw [forEachRemaining, range.natural?_eq]
  rfl

theorem Inside.forEachRemaining (h : c.Inside d) (hd : d.WellFormed) (hm : d.slotCount < 2 ^ 63)
    (action : Callback σ α Unit) (s : σ) :
    (c.forEachRemainingOnWords action d s).Computes (c.forEachRemaining action d s) ∧
      (c.forEachRemaining action d s).1.2.Inside d := by
  have stopped : Inside { c with remaining := 0 } d := ⟨h.position_lt, Nat.zero_le _⟩
  refine ⟨computes_forEachRemaining (h.inRange_ahead hd hm) hm action s, ?_⟩
  have inside := stopped.visit h.position_lt action s (n := c.remaining)
  rw [OneWayCursor.forEachRemaining_eq]
  split
  · exact stopped
  split
  · exact stopped
  split
  · exact stopped
  · dsimp only
    generalize OneWayCursor.visit action d c.remaining c.position _ s = outcome at inside ⊢
    obtain ⟨⟨_ | _, c'⟩, s'⟩ := outcome
    · exact inside
    · exact inside

/-- One call: it stays within the words and leaves the cursor inside the buffer. -/
theorem Inside.call (h : c.Inside d) (hd : d.WellFormed) (hm : d.slotCount < 2 ^ 63)
    (call : Call σ α) :
    (callOnWords call (c, d)).Computes (c.call call d) ∧
    (c.call call d).2.1.Inside (c.call call d).2.2 := by
  cases call with
  | next =>
      obtain ⟨computes, inside⟩ := h.next hm
      exact ⟨computes.bind (.result _), inside⟩
  | remove =>
      obtain ⟨computes, inside⟩ := h.remove hd hm
      exact ⟨computes.bind (.result _), inside⟩
  | forEachRemaining action s =>
      obtain ⟨computes, inside⟩ := h.forEachRemaining hd hm action s
      exact ⟨computes.bind (.result _), inside⟩
  | hasNext => exact ⟨.result _, h⟩
  | remaining => exact ⟨.result _, h⟩

theorem Inside.computes_callAll (h : c.Inside d) (hd : d.WellFormed) (hm : d.slotCount < 2 ^ 63)
    (calls : List (Call σ α)) :
    (callAllOnWords callOnWords calls (c, d)).Computes
      (callAll (fun call (c, d) => OneWayCursor.call call c d) calls (c, d)) := by
  refine RingDeque.computes_callAll (fun (c, d) => c.Inside d ∧ d.WellFormed ∧ d.slotCount < 2 ^ 63)
    ?_
    ⟨h, hd, hm⟩ calls
  rintro call ⟨c, d⟩ ⟨h, hd, hm⟩
  obtain ⟨computes, inside⟩ := h.call hd hm call
  exact ⟨computes, inside, wellFormed_call hd c call, c.slotCount_call call d ▸ hm⟩

end OneWayCursor

/-! ### Two-way cursors -/

namespace TwoWayCursor

variable {c : TwoWayCursor} {d : Deque α} {n : Nat}

/-- `call` on words. Replacing an element adds and subtracts nothing. -/
def callOnWords :
    Call σ α → TwoWayCursor × Deque α → Calculation (Reply σ α × TwoWayCursor × Deque α)
  | .next, (c, d) => (c.nextOnWords d).bind fun (result, c) => .result (.element result, c, d)
  | .previous, (c, d) => (c.previousOnWords d).bind fun (result, c) =>
    .result (.element result, c, d)
  | .set x, (c, d) => let (result, d) := c.set x d; .result (.element result, c, d)
  | .remove, (c, d) => (c.removeOnWords d).bind fun (result, c, d) =>
    .result (.element result, c, d)
  | .add a x, (c, d) => (c.addOnWords a x d).bind fun (result, c, d) =>
    .result (.added result, c, d)
  | .forEachRemaining action s, (c, d) =>
    (c.forEachRemainingOnWords action d s).bind fun ((result, c), s) =>
    .result (.visited result s, c, d)
  | .hasNext, (c, d) => .result (.flag c.hasNext, c, d)
  | .hasPrevious, (c, d) => .result (.flag c.hasPrevious, c, d)
  | .nextIndex, (c, d) => c.nextIndexOnWords.bind fun index => .result (.index (some index), c, d)
  | .previousIndex, (c, d) => c.previousIndex?OnWords.bind fun index? =>
    .result (.index index?, c, d)

/-- The cursor's slots are slots of a buffer as large as it takes the buffer to be. -/
structure Inside (c : TwoWayCursor) : Prop where
  position_lt : c.position < c.slotCount
  start_lt : c.start < c.slotCount
  slotCount_lt : c.slotCount < 2 ^ 63

theorem Inside.computes_nextIndex (h : c.Inside) : c.nextIndexOnWords.Computes c.nextIndex :=
  Circle.computes_steps h.start_lt h.position_lt h.slotCount_lt

theorem Inside.nextIndex_lt (h : c.Inside) : c.nextIndex < c.slotCount :=
  Circle.steps_lt h.start_lt h.position_lt

theorem Inside.computes_previousIndex (h : c.Inside) :
    c.previousIndex?OnWords.Computes c.previousIndex? := by
  have index := h.nextIndex_lt
  have bound := h.slotCount_lt
  refine .of_inRange (.bind h.computes_nextIndex ?_) rfl
  split
  · exact .result _
  · exact .sub (by omega) (by omega) (.result _)

theorem Inside.computes_next (h : c.Inside) (d : Deque α) :
    (c.nextOnWords d).Computes (c.next d) := by
  refine .of_inRange ?_ rfl
  unfold nextOnWords
  split
  · exact .result _
  split
  · exact .bind (Circle.computes_next h.position_lt h.slotCount_lt) (.result _)
  · exact .result _

theorem Inside.computes_previous (h : c.Inside) (d : Deque α) :
    (c.previousOnWords d).Computes (c.previous d) := by
  refine .of_inRange ?_ rfl
  unfold previousOnWords
  split
  · exact .result _
  split
  · exact .bind (Circle.computes_prev h.position_lt h.slotCount_lt) (.result _)
  · exact .result _

theorem Inside.computes_visit (h : c.Inside) (action : Callback σ α Unit) (d : Deque α) (s : σ) :
    (visitOnWords action d n c s).Computes (visit action d n c s) := by
  refine .of_inRange ?_ rfl
  induction n generalizing c s with
  | zero => exact .result _
  | succ n ih =>
      have step := Circle.computes_next h.position_lt h.slotCount_lt
      have past :
        Inside { c with position := Circle.next c.position c.slotCount, last := some c.position } :=
        ⟨Circle.next_lt h.position_lt, h.start_lt, h.slotCount_lt⟩
      unfold visitOnWords
      cases d.slot c.position with
      | none => exact .bind step (ih past s)
      | some x =>
          dsimp only
          rcases action x s with ⟨fault | ⟨⟩, s'⟩
          · exact .result _
          · exact .bind step (ih past s')

theorem Inside.computes_forEachRemaining (h : c.Inside) (action : Callback σ α Unit) (d : Deque α)
    (s : σ) :
    (c.forEachRemainingOnWords action d s).Computes (c.forEachRemaining action d s) := by
  refine .of_inRange ?_ rfl
  unfold forEachRemainingOnWords
  split
  · exact .bind (h.computes_visit action d s) (.result _)
  · exact .result _

theorem Inside.computes_afterRemoval (h : c.Inside) (removed : Nat) (closed : Closed)
    (d : Deque α) :
    (c.afterRemovalOnWords removed closed d).Computes (c.afterRemoval removed closed d) := by
  refine .of_inRange ?_ rfl
  unfold afterRemovalOnWords
  cases closed with
  | tail =>
      dsimp only
      split
      · exact .result _
      · exact .bind (Circle.computes_prev h.position_lt h.slotCount_lt) (.result _)
  | head =>
      dsimp only
      split
      · exact .bind (Circle.computes_next h.position_lt h.slotCount_lt) (.result _)
      · exact .result _

theorem Inside.computes_remove (h : c.Inside) (hd : d.WellFormed) (hm : d.slotCount < 2 ^ 63) :
    (c.removeOnWords d).Computes (c.remove d) := by
  refine .of_inRange ?_ rfl
  unfold removeOnWords
  cases c.last with
  | none => exact .result _
  | some p =>
      dsimp only
      split
      · refine .bind (hd.computes_delete hm p) ?_
        rcases d.delete p with ⟨_ | ⟨x, closed⟩, d'⟩
        · exact .result _
        · exact .bind (h.computes_afterRemoval p closed d') (.result _)
      · exact .result _

theorem Inside.computes_afterInsertion (h : c.Inside) (shift : Shift) (d : Deque α) :
    (c.afterInsertionOnWords shift d).Computes (c.afterInsertion shift d) := by
  have index := h.nextIndex_lt
  have bound := h.slotCount_lt
  refine .of_inRange ?_ rfl
  cases shift with
  | reallocated => exact .bind h.computes_nextIndex (.add (by omega) (.result _))
  | tail => exact .bind (Circle.computes_next h.position_lt h.slotCount_lt) (.result _)
  | head => exact .result _

theorem Inside.computes_add (h : c.Inside) (hd : d.WellFormed) (hm : d.slotCount < 2 ^ 63)
    (a : Allocator) (x : α) : (c.addOnWords a x d).Computes (c.add a x d) := by
  refine .of_inRange ?_ rfl
  unfold addOnWords
  split
  · next agrees =>
      have size : d.slotCount = c.slotCount := by
        simp only [TwoWayCursor.agrees, Bool.and_eq_true, beq_iff_eq] at agrees
        exact agrees.2
      refine .bind (hd.computes_insertAt hm (size ▸ h.position_lt) x) ?_
      rcases d.insertAt a c.position x with ⟨e | shift, d'⟩
      · exact .result _
      · exact .bind (h.computes_afterInsertion shift d') (.result _)
  · exact .result _

theorem Inside.computes_call (h : c.Inside) (hd : d.WellFormed) (hm : d.slotCount < 2 ^ 63)
    (call : Call σ α) :
    (callOnWords call (c, d)).Computes (c.call call d) := by
  cases call with
  | next => exact (h.computes_next d).bind (.result _)
  | previous => exact (h.computes_previous d).bind (.result _)
  | set x => exact .result _
  | remove => exact (h.computes_remove hd hm).bind (.result _)
  | add a x => exact (h.computes_add hd hm a x).bind (.result _)
  | forEachRemaining action s => exact (h.computes_forEachRemaining action d s).bind (.result _)
  | hasNext => exact .result _
  | hasPrevious => exact .result _
  | nextIndex => exact h.computes_nextIndex.bind (.result _)
  | previousIndex => exact h.computes_previousIndex.bind (.result _)

end TwoWayCursor

namespace Gap

open TwoWayCursor (Call callOnWords)

variable {g : Gap α} {d : Deque α}

theorem On.inside (h : g.On d) (hm : d.slotCount < 2 ^ 63) : (g.cursorOn d).Inside where
  position_lt :=
    Circle.forward_lt h.holds.head_lt
      (Nat.le_of_lt (Nat.lt_of_le_of_lt h.place_le h.holds.length_lt))
  start_lt := h.holds.head_lt
  slotCount_lt := hm

end Gap

namespace TwoWayCursor

variable {c : TwoWayCursor} {d : Deque α}

/-- Only an insertion makes the buffer larger, and no allocator makes it too large. -/
theorem Placed.slotCount_call_lt (h : c.Placed α) (hd : d.WellFormed) (hm : d.slotCount < 2 ^ 63)
    (call : Call σ α) : (c.call call d).2.2.slotCount < 2 ^ 63 := by
  cases call with
  | set x => exact (c.slotCount_set x d).symm ▸ hm
  | remove => exact (c.slotCount_remove d).symm ▸ hm
  | add a x => exact (h.sized_add (a := a) (x := x) hd).slotCount_lt hm
  | _ => exact hm

/-- Whatever is called on a cursor that agrees with the deque, in whatever order: it goes on
agreeing with it, and every call stays within the words. -/
theorem Placed.computes_callAll (h : c.Placed α) (agrees : c.agrees d = true) (hd : d.WellFormed)
    (hm : d.slotCount < 2 ^ 63) (calls : List (Call σ α)) :
    (callAllOnWords callOnWords calls (c, d)).Computes
      (callAll (fun call (c, d) => TwoWayCursor.call call c d) calls (c, d)) := by
  obtain ⟨g, e, on, rfl⟩ := h
  obtain ⟨here, same⟩ := on.on_of_agrees hd.holds agrees
  rw [same]
  refine RingDeque.computes_callAll
    (fun (c, d) => ∃ g : Gap α, g.On d ∧ c = g.cursorOn d ∧ d.slotCount < 2 ^ 63) ?_
    ⟨_, here, rfl, hm⟩ calls
  rintro call ⟨_, d⟩ ⟨g, on, rfl, hm⟩
  have ordered := on.holds.wellFormed
  have bounded := Placed.slotCount_call_lt ⟨g, d, on, rfl⟩ ordered hm call
  refine ⟨(on.inside hm).computes_call ordered hm call, ?_⟩
  obtain ⟨d', answer, on', -⟩ := on.call call
  rw [answer] at bounded
  dsimp only
  rw [answer]
  exact ⟨_, on', rfl, bounded⟩

end TwoWayCursor

namespace Deque

variable {d : Deque α}

theorem WellFormed.computes_cursorAt (h : d.WellFormed) (hm : d.slotCount < 2 ^ 63) (index : Nat) :
    (d.cursorAtOnWords index).Computes (d.cursorAt index) := by
  have length := h.length_lt
  refine .of_inRange (.bind (h.computes_length hm) ?_) rfl
  split
  · exact .result _
  · exact .bind (h.computes_position hm (by omega)) (.result _)

end Deque

end RingDeque
