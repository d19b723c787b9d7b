import RingDeque.Proofs.FailFast
import RingDeque.Proofs.KeptCursor
import RingDeque.Proofs.Words.Cursor

/-!
# Cursors that have overshot

Before a one-way cursor shows what it has left it counts the elements from its slot on, and it
counts before anything is known about the slot. Since the cursor was set up a trim may have left a
buffer that ends far in front of the slot. When the slot lies more than a round beyond the back, a
forward cursor has overshot: the count takes the slot from a number that is smaller. Words that are
checked end the program in the middle of the count. Words that wrap make some number of it, which
does no harm, because such a slot is outside the buffer.

Slots that a cursor remembers are slots of buffers, of this one or of earlier ones, so all other
numbers on the way are words, whatever happened to the cursor and its deque.
-/

namespace RingDeque

variable {σ : Type u} {α : Type v}

namespace OneWayCursor

variable {c : OneWayCursor} {d : Deque α} {action : Callback σ α Unit} {s : σ} {n p m bound : Nat}

/-! ### Counting on words -/

/-- The elements ahead can be counted from any slot that a word can name, if the cursor has not
overshot. -/
theorem inRange_ahead_of_not_overshoots (h : d.WellFormed) (hm : d.slotCount < 2 ^ 63)
    (position_lt : c.position < 2 ^ 63) (inside : ¬c.Overshoots d) :
    (c.aheadOnWords d).InRange := by
  obtain ⟨direction, position, remaining, last⟩ := c
  have tail := h.tail_lt
  have head := h.head_lt
  change position < 2 ^ 63 at position_lt
  cases direction with
  | forward =>
      have round : position ≤ d.tail + d.slotCount := Nat.le_of_not_lt fun beyond =>
        inside ⟨rfl, beyond⟩
      exact (Circle.computes_steps_of_le round (by omega) hm).inRange
  | backward =>
      have round : d.head ≤ position + d.slotCount := by omega
      have few : Circle.steps d.head position d.slotCount < 2 ^ 63 := by
        rw [Circle.steps_eq]
        split <;> omega
      refine .bind (Circle.computes_steps_of_le round position_lt hm) (.add ?_ (.result _))
      exact show Circle.steps d.head position d.slotCount + 1 < 2 ^ 64 by omega

/-- The whole calculation of a cursor that has overshot: a sum, and a difference that goes below
zero. Whatever is made of that, the slot turns out to be outside the buffer. -/
theorem Overshoots.forEachRemainingOnWords_eq (overshot : c.Overshoots d)
    (some_left : 0 < c.remaining) (action : Callback σ α Unit) (s : σ) :
    c.forEachRemainingOnWords action d s =
      .add d.tail d.slotCount fun around => .sub around c.position fun _ =>
      .result ((.ok (.error .concurrentModification), { c with remaining := 0 }), s) := by
  have beyond : ¬c.position ≤ d.tail := by
    have past := overshot.2
    omega
  rw [forEachRemainingOnWords, if_neg (Nat.ne_of_gt some_left), aheadOnWords, overshot.1,
    overshot.slot_eq_none]
  dsimp only
  rw [Circle.stepsOnWords, if_neg beyond]
  rfl

theorem Overshoots.checked_forEachRemaining (overshot : c.Overshoots d) (h : d.WellFormed)
    (hm : d.slotCount < 2 ^ 63) (some_left : 0 < c.remaining) (action : Callback σ α Unit) (s : σ) :
    (c.forEachRemainingOnWords action d s).checked = none := by
  have word : d.tail + d.slotCount < 2 ^ 64 := by
    have tail := h.tail_lt
    omega
  rw [overshot.forEachRemainingOnWords_eq some_left, Calculation.checked, if_pos word,
    Calculation.checked, if_neg (Nat.not_le_of_lt overshot.2)]

theorem computes_forEachRemaining_of_not_overshoots (inside : ¬c.Overshoots d) (h : d.WellFormed)
    (hm : d.slotCount < 2 ^ 63) (position_lt : c.position < 2 ^ 63) (action : Callback σ α Unit)
    (s : σ) : (c.forEachRemainingOnWords action d s).Computes (c.forEachRemaining action d s) :=
  computes_forEachRemaining (inRange_ahead_of_not_overshoots h hm position_lt inside) hm action s

/-! ### Slots that a cursor remembers -/

theorem position_follow_lt (hp : c.position < bound) (hm : m ≤ bound) (closed : Closed) :
    (c.follow closed m).position < bound := by
  have next := Direction.forward.step_lt_of_le hp hm
  have prev := Direction.backward.step_lt_of_le hp hm
  obtain ⟨direction, position, remaining, last⟩ := c
  rw [follow_eq]
  cases direction with
  | forward =>
      cases closed with
      | tail => exact prev
      | head => exact hp
  | backward =>
      cases closed with
      | tail => exact hp
      | head => exact next

theorem position_visit_lt (hc : c.position < bound) (hp : p < bound) (hm : d.slotCount ≤ bound) :
    (visit action d n p c s).1.2.position < bound := by
  induction n generalizing p c s with
  | zero => exact hp
  | succ n ih =>
      have step := c.direction.step_lt_of_le hp hm
      rw [visit_succ]
      cases d.slot p with
      | none => exact ih hc step
      | some x =>
          dsimp only
          rcases action x s with ⟨_ | _, s'⟩
          · exact hc
          · exact ih hc step

theorem position_next_lt (hp : c.position < bound) (hm : d.slotCount ≤ bound) :
    (c.next d).2.position < bound := by
  rw [OneWayCursor.next_eq]
  split
  · exact hp
  cases d.slot c.position with
  | none => exact hp
  | some x => exact c.direction.step_lt_of_le hp hm

theorem position_remove_lt (hp : c.position < bound) (hm : d.slotCount ≤ bound) :
    (c.remove d).2.1.position < bound := by
  rw [OneWayCursor.remove_eq]
  cases c.last with
  | none => exact hp
  | some p =>
      have here : OneWayCursor.position { c with last := none } < bound := hp
      have size := d.slotCount_delete p
      dsimp only
      generalize d.delete p = outcome at size ⊢
      obtain ⟨_ | ⟨x, closed⟩, d'⟩ := outcome
      · exact hp
      · exact position_follow_lt here (size.symm ▸ hm) closed

theorem position_forEachRemaining_lt (hp : c.position < bound) (hm : d.slotCount ≤ bound) :
    (c.forEachRemaining action d s).1.2.position < bound := by
  have visited : (visit action d c.remaining c.position { c with remaining := 0 } s).1.2.position <
    bound :=
    position_visit_lt hp hp hm
  rw [OneWayCursor.forEachRemaining_eq]
  split
  · exact hp
  split
  · exact hp
  split
  · exact hp
  · dsimp only
    generalize visit action d c.remaining c.position _ s = outcome at visited ⊢
    obtain ⟨⟨_ | _, c'⟩, s'⟩ := outcome
    · exact visited
    · exact visited

/-- No call leads a cursor beyond the slots of the buffers that it has seen. -/
theorem position_call_lt (hp : c.position < bound) (hm : d.slotCount ≤ bound) (call : Call σ α) :
    (c.call call d).2.1.position < bound := by
  cases call with
  | next => exact position_next_lt hp hm
  | remove => exact position_remove_lt hp hm
  | forEachRemaining action s => exact position_forEachRemaining_lt hp hm
  | hasNext => exact hp
  | remaining => exact hp

end OneWayCursor

/-! ### What happens in between -/

/-- What happens to a cursor and its deque: a call on the cursor, or a change that is made without
it. -/
inductive Event (σ : Type u) (α : Type v) where
  | own (call : OneWayCursor.Call σ α)
  | other (change : Change.{u, v} σ α)

namespace Event

/-- The cursor and the deque after the event. -/
def run : Event σ α → OneWayCursor × Deque α → OneWayCursor × Deque α
  | .own call, (c, d) => (c.call call d).2
  | .other change, (c, d) => (c, change.run d)

/-- The cursor and the deque after these events. -/
def runAll : List (Event σ α) → OneWayCursor × Deque α → OneWayCursor × Deque α
  | [], state => state
  | event :: events, state => runAll events (event.run state)

end Event

theorem Update.slotCount_run_lt {d : Deque α} (h : d.WellFormed) (hm : d.slotCount < 2 ^ 63)
    (a : Allocator) (u : Update σ α) : (u.run a d).slotCount < 2 ^ 63 := by
  cases u.resized (a := a) h.holds with
  | kept size => exact size.symm ▸ hm
  | trimmed _ size => exact Nat.lt_of_le_of_lt size hm
  | @enlarged b _ _ grown => exact Nat.lt_of_le_of_lt grown.bounded b.maxSlots_lt

theorem TwoWayCursor.Reached.slotCount_call_lt {c : TwoWayCursor} {d : Deque α}
    (h : Reached.{u, v} c) (hd : d.WellFormed) (hm : d.slotCount < 2 ^ 63)
    (call : TwoWayCursor.Call σ α) :
    (c.call call d).2.2.slotCount < 2 ^ 63 := by
  cases agrees : c.agrees d with
  | false =>
      rw [call_of_not_agrees agrees]
      exact hm
  | true =>
      obtain ⟨β, g, e, on, rfl⟩ := h.placed
      obtain ⟨here, same⟩ := on.on_of_agrees hd.holds agrees
      rw [same]
      exact Placed.slotCount_call_lt ⟨_, d, here, rfl⟩ hd hm call

theorem Change.slotCount_run_lt {d : Deque α} (h : d.WellFormed) (hm : d.slotCount < 2 ^ 63)
    (change : Change σ α) : (change.run d).slotCount < 2 ^ 63 := by
  cases change with
  | update a u => exact u.slotCount_run_lt h hm a
  | oneWay c call => exact (c.slotCount_call call d).symm ▸ hm
  | twoWay c reached call => exact reached.slotCount_call_lt h hm call

/-- The deque is in order, and words have room for its slots and for the one that the cursor
remembers. -/
structure OneWayCursor.Remembers (c : OneWayCursor) (d : Deque α) : Prop where
  wellFormed : d.WellFormed
  slotCount_lt : d.slotCount < 2 ^ 63
  position_lt : c.position < 2 ^ 63

namespace OneWayCursor

variable {c : OneWayCursor} {d : Deque α}

theorem Remembers.run (h : c.Remembers d) (event : Event σ α) :
    (event.run (c, d)).1.Remembers (event.run (c, d)).2 := by
  cases event with
  | own call =>
      refine ⟨wellFormed_call h.wellFormed c call, ?_, ?_⟩
      · exact (c.slotCount_call call d).symm ▸ h.slotCount_lt
      · exact position_call_lt h.position_lt (Nat.le_of_lt h.slotCount_lt) call
  | other change =>
      exact ⟨h.wellFormed.change change, change.slotCount_run_lt h.wellFormed h.slotCount_lt,
        h.position_lt⟩

theorem Remembers.runAll (h : c.Remembers d) (events : List (Event σ α)) :
    (Event.runAll events (c, d)).1.Remembers (Event.runAll events (c, d)).2 := by
  induction events generalizing c d with
  | nil => exact h
  | cons event events ih => exact ih (h.run event)

theorem remembers_start (h : d.WellFormed) (hm : d.slotCount < 2 ^ 63) (direction : Direction) :
    (start direction d).Remembers d :=
  ⟨h, hm, Nat.lt_trans (inside_start h direction).position_lt hm⟩

end OneWayCursor

/-- A cursor was set up, and then it and its deque went through any events. If it has overshot, what
it has left is not shown: the count goes below zero, which is a fault. Otherwise it is shown if the
cursor fits, and there is a conflict and nothing is shown if it does not. Words agree with that: no
sum and no difference leaves them unless the cursor has overshot; then the calculation is a sum and
a difference that goes below zero, so on words that are checked nothing comes of it, and on words
that wrap there is a conflict here as well. -/
theorem Deque.WellFormed.kept_cursor_serves {d₀ : Deque α} (h : d₀.WellFormed)
    (hm : d₀.slotCount < 2 ^ 63) (direction : Direction) (events : List (Event σ α)) :
    let (c, d) := Event.runAll events (OneWayCursor.start direction d₀, d₀)
    0 < c.remaining → ∀ (action : Callback σ α Unit) (s : σ),
      let outcome := c.forEachRemaining action d s
      let onWords := c.forEachRemainingOnWords action d s
      let stopped := { c with remaining := 0 }
      let conflict := ((.ok (.error .concurrentModification), stopped), s)
      (c.Overshoots d → outcome = ((.error .belowZero, stopped), s)) ∧
      (¬c.Overshoots d → c.Fits d → c.Serves d action s) ∧
      (¬c.Overshoots d → ¬c.Fits d → outcome = conflict) ∧
      (¬c.Overshoots d → onWords.Computes outcome) ∧
      (c.Overshoots d → onWords.checked = none ∧ onWords.wrapping = conflict ∧ onWords =
        .add d.tail d.slotCount fun around => .sub around c.position fun _ =>
          .result conflict) := by
  have kept := (OneWayCursor.remembers_start h hm direction).runAll events
  generalize Event.runAll events (OneWayCursor.start direction d₀, d₀) = state at kept ⊢
  obtain ⟨c, d⟩ := state
  obtain ⟨ordered, size, position⟩ := kept
  intro some_left action s
  refine ⟨fun overshot => overshot.forEachRemaining_eq ordered some_left action s,
    fun _ fits => fits.serves ordered action s,
    fun inside unfit => OneWayCursor.forEachRemaining_of_not_fits ordered some_left unfit inside,
    fun inside => OneWayCursor.computes_forEachRemaining_of_not_overshoots inside ordered size
      position action s, ?_⟩
  intro overshot
  have calculation := overshot.forEachRemainingOnWords_eq some_left action s
  refine ⟨overshot.checked_forEachRemaining ordered size some_left action s, ?_, calculation⟩
  rw [calculation]
  rfl

/-- Elements that wrap, visited from the back. The cursor has returned one of them, which is then
removed and replaced. The other two are still due. -/
theorem Deque.WellFormed.kept_cursor_serves_backward :
    let a := Allocator.bounded 8 100
    let d₀ : Deque Nat := ⟨#[some 3, none, none, some 1, some 2], 3, 1⟩
    let events : List (Event (List Nat) Nat) :=
      [.own .next, .other (.update a (.operation .popBack)), .other (.update a (.tryPushBack 9))]
    let c : OneWayCursor := ⟨.backward, 4, 2, some 0⟩
    let d : Deque Nat := ⟨#[some 9, none, none, some 1, some 2], 3, 1⟩
    let action : Callback (List Nat) Nat Unit := fun x seen => (.ok (), seen ++ [x])
    d₀.WellFormed ∧ d₀.slotCount < 2 ^ 63 ∧
      Event.runAll events (OneWayCursor.start .backward d₀, d₀) = (c, d) ∧ 0 < c.remaining ∧
        ¬c.Overshoots d ∧
      c.Fits d ∧ c.Serves d action [] ∧ c.due d = [2, 1] ∧
      (c.forEachRemaining action d []).1.1 = .ok (.ok ()) ∧
      (c.forEachRemaining action d []).2 = [2, 1] ∧
      (c.forEachRemainingOnWords action d []).Computes (c.forEachRemaining action d []) := by
  intro a d₀ events c d action
  have ordered : d₀.WellFormed := Deque.isWellFormed_iff.1 (by decide)
  have size : d₀.slotCount < 2 ^ 63 := by decide
  have run : Event.runAll events (OneWayCursor.start .backward d₀, d₀) = (c, d) := by decide
  have some_left : 0 < c.remaining := by decide
  have fits : c.Fits d := ⟨rfl, by decide⟩
  have general := kept_cursor_serves ordered size .backward events
  rw [run] at general
  obtain ⟨-, served, -, computes, -⟩ := general some_left action []
  have inside : ¬c.Overshoots d := fun overshot => by cases overshot.1
  have serves := served inside fits
  have due : c.due d = [2, 1] := by decide
  refine ⟨ordered, size, run, some_left, inside, fits, serves, due, ?_, ?_, computes inside⟩
  · exact (serves.completes fun x seen => ⟨_, rfl⟩).1
  · rw [serves.state_eq, due]
    rfl

/-- A forward cursor in front of two elements near the end of eight slots. One of them is removed
and the buffer is trimmed to two slots; then to count the elements ahead takes five from three. -/
theorem Deque.WellFormed.kept_cursor_leaves_words :
    ∃ (a : Allocator) (d₀ d : Deque Nat) (events : List (Event (List Nat) Nat)) (c : OneWayCursor)
      (action : Callback (List Nat) Nat Unit),
      d₀ = ⟨#[none, none, none, none, none, some 1, some 2, none], 5, 7⟩ ∧ d₀.WellFormed ∧
      events = [.other (.update a (.operation .popBack)), .other (.update a .tryTrimToSize)] ∧
      Event.runAll events (d₀.cursor, d₀) = (c, d) ∧ d = ⟨#[some 1, none], 0, 1⟩ ∧ d.WellFormed ∧
      0 < c.remaining ∧
      c.forEachRemaining action d [] = ((.error .belowZero, { c with remaining := 0 }), []) ∧
      (c.forEachRemainingOnWords action d []).checked = none ∧
      ¬∃ outcome, (c.forEachRemainingOnWords action d []).Computes outcome := by
  refine ⟨.bounded 8 100, _, _, _, ⟨.forward, 5, 2, none⟩, fun x seen => (.ok (), seen ++ [x]), rfl,
    Deque.isWellFormed_iff.1 (by decide), rfl, rfl, rfl, Deque.isWellFormed_iff.1 (by decide),
    by decide, rfl, rfl, ?_⟩
  rintro ⟨outcome, computes⟩
  have stopped := computes.checked_eq
  contradiction

end RingDeque
