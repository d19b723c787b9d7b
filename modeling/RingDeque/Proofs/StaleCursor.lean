import RingDeque.Proofs.Reachable

/-!
# Cursors on deques that they do not know

A cursor keeps slots and no deque. Between two calls its deque may have been changed, rotated or
moved to another buffer, and it may be called on another deque altogether, even on one with elements
of another type. It does no harm there. Either the call is refused, and the deque is untouched, or
the call does to one element, or with one new element, what a call of its kind is for.

For a one-way cursor this needs nothing but a deque in order: whatever slot it names is either free
or that of an element. A two-way cursor also inserts, and for that it matters where it stands. What
has to be known is that it stands in a gap of some deque, no matter of which: the next call refuses
every deque with other ends or another number of slots, and in all others the same slot is a gap
too.
-/

namespace RingDeque

variable {σ : Type u} {α : Type v}

namespace Deque

variable {d d' : Deque α} {xs : List α} {x : α} {p : Nat}

/-- Some element of `d` was the result, and nothing changed. -/
def Yields (d d' : Deque α) (result : Except Error α) : Prop :=
  (∃ x ∈ d.toList, result = .ok x) ∧ d' = d

/-- One element of `d` is gone, and it was the result. -/
def Loses (d d' : Deque α) (result : Except Error α) : Prop :=
  ∃ (k : Nat) (hk : k < d.toList.length),
    result = .ok d.toList[k] ∧ d'.toList = d.toList.eraseIdx k

/-- One element of `d` was replaced by `x`, and it was the result. -/
def Trades (x : α) (d d' : Deque α) (result : Except Error α) : Prop :=
  ∃ (k : Nat) (hk : k < d.toList.length),
    result = .ok d.toList[k] ∧ d'.toList = d.toList.set k x

/-- At some place of `d` there now is `x` in addition. -/
def Gains (x : α) (d d' : Deque α) (result : Except Error Unit) : Prop :=
  result = .ok () ∧ ∃ k ≤ d.toList.length, d'.toList = d.toList.insertIdx k x

theorem Holds.mem_of_slot (h : d.Holds xs) (hp : d.slot p = some x) : x ∈ xs := by
  rw [h.slot_eq (lt_slotCount_of_slot hp)] at hp
  exact List.mem_of_getElem? hp

end Deque

/-! ### One-way cursors -/

namespace OneWayCursor

/-- What a call that is not refused returns, and what it does to the deque. -/
def Call.Effect (d d' : Deque α) : Call σ α → Reply σ α → Prop
  | .next, .element result => d.Yields d' result
  | .remove, .element result => d.Loses d' result
  | .next, _ | .remove, _ => False
  | _, _ => d' = d

variable {d : Deque α}

theorem next_harmless (h : d.WellFormed) (c : OneWayCursor) :
    (∃ e, (c.next d).1 = .error e) ∨ d.Yields d (c.next d).1 := by
  by_cases done : c.remaining = 0
  · rw [next_eq, if_pos done]
    exact .inl ⟨_, rfl⟩
  · rw [next_eq, if_neg done]
    cases here : d.slot c.position with
    | none => exact .inl ⟨.concurrentModification, rfl⟩
    | some x => exact .inr ⟨⟨x, h.holds.mem_of_slot here, rfl⟩, rfl⟩

theorem remove_harmless (h : d.WellFormed) (c : OneWayCursor) :
    ((∃ e, (c.remove d).1 = .error e) ∧ (c.remove d).2.2 = d) ∨
      ((c.remove d).2.2.WellFormed ∧ d.Loses (c.remove d).2.2 (c.remove d).1) := by
  rw [remove_eq]
  cases c.last with
  | none => exact .inl ⟨⟨_, rfl⟩, rfl⟩
  | some p =>
      obtain free | ⟨k, hk, closed, d', deleted, holds⟩ := h.holds.delete_any p
      · dsimp only
        rw [free]
        exact .inl ⟨⟨_, rfl⟩, rfl⟩
      · dsimp only
        rw [deleted]
        exact .inr ⟨holds.wellFormed, k, hk, rfl, holds.toList_eq⟩

/-- Whatever slots the cursor holds, however it came by them. -/
theorem call_harmless (h : d.WellFormed) (c : OneWayCursor) (call : Call σ α) :
    ((∃ e, (c.call call d).1.error? = some e) ∧ (c.call call d).2.2 = d) ∨
      ((c.call call d).2.2.WellFormed ∧ call.Effect d (c.call call d).2.2 (c.call call d).1) := by
  cases call with
  | next =>
      obtain ⟨e, refused⟩ | yields := c.next_harmless h
      · refine .inl ⟨⟨e, ?_⟩, rfl⟩
        change Reply.error? (.element (c.next d).1 : Reply σ α) = some e
        rw [refused]
        rfl
      · exact .inr ⟨h, yields⟩
  | remove =>
      obtain ⟨⟨e, refused⟩, same⟩ | ⟨ordered, loses⟩ := c.remove_harmless h
      · refine .inl ⟨⟨e, ?_⟩, same⟩
        change Reply.error? (.element (c.remove d).1 : Reply σ α) = some e
        rw [refused]
        rfl
      · exact .inr ⟨ordered, loses⟩
  | forEachRemaining action s => exact .inr ⟨h, rfl⟩
  | hasNext => exact .inr ⟨h, rfl⟩
  | remaining => exact .inr ⟨h, rfl⟩

end OneWayCursor

/-! ### Two-way cursors -/

namespace TwoWayCursor

/-- A cursor that was set up on some deque in order and has since been called on any such deques. -/
inductive Reached : TwoWayCursor → Prop where
  | setUp {β : Type v} {d : Deque β} {index : Nat} {c : TwoWayCursor} (h : d.WellFormed)
      (hc : d.cursorAt index = .ok c) : Reached c
  | called {σ : Type u} {β : Type v} {d : Deque β} {c : TwoWayCursor} (h : Reached c)
      (hd : d.WellFormed) (call : Call σ β) : Reached (c.call call d).2.1

/-- What a call that is not refused returns, and what it does to the deque. -/
def Call.Effect (d d' : Deque α) : Call σ α → Reply σ α → Prop
  | .next, .element result | .previous, .element result => d.Yields d' result
  | .remove, .element result => d.Loses d' result
  | .set x, .element result => d.Trades x d' result
  | .add _ x, .added result => d.Gains x d' result
  | .next, _ | .previous, _ | .remove, _ | .set _, _ | .add .., _ => False
  | _, _ => d' = d

variable {β : Type v} {c : TwoWayCursor} {d : Deque α}

/-- Where a cursor stands is not a matter of what the elements are. -/
theorem Placed.call_any (h : c.Placed β) (hd : d.WellFormed) (call : Call σ α) :
    (c.call call d).2.1.Placed α ∨ (c.call call d).2.1.Placed β := by
  cases agrees : c.agrees d with
  | false =>
      rw [call_of_not_agrees agrees]
      exact .inr h
  | true =>
      obtain ⟨g, e, on, rfl⟩ := h
      obtain ⟨here, same⟩ := on.on_of_agrees hd.holds agrees
      have placed : (g.cursorOn e).Placed α := ⟨_, d, here, same⟩
      exact .inl (placed.call hd call).1

/-- The invariant of two-way cursors. -/
theorem Reached.placed (h : Reached.{u, v} c) : ∃ β : Type v, c.Placed β := by
  induction h with
  | setUp h hc => exact ⟨_, placed_of_cursorAt h hc⟩
  | called _ hd call ih =>
      obtain ⟨β, placed⟩ := ih
      obtain placed' | placed' := placed.call_any hd call
      · exact ⟨_, placed'⟩
      · exact ⟨_, placed'⟩

/-- A cursor that does not agree with the deque refuses every call that would read or change it. -/
theorem error?_of_not_agrees (h : c.agrees d = false) (call : Call σ α) :
    (∃ e, (c.call call d).1.error? = some e) ∨ call.Effect d d (c.call call d).1 := by
  cases call with
  | next =>
      rw [TwoWayCursor.call, TwoWayCursor.next_eq, h]
      by_cases stop : c.position = c.stop
      · rw [if_pos stop]
        exact .inl ⟨_, rfl⟩
      · rw [if_neg stop]
        exact .inl ⟨_, rfl⟩
  | previous =>
      rw [TwoWayCursor.call, TwoWayCursor.previous_eq, h]
      by_cases start : c.position = c.start
      · rw [if_pos start]
        exact .inl ⟨_, rfl⟩
      · rw [if_neg start]
        exact .inl ⟨_, rfl⟩
  | set x =>
      rw [TwoWayCursor.call, TwoWayCursor.set, h]
      cases c.last with
      | none => exact .inl ⟨_, rfl⟩
      | some p => exact .inl ⟨_, rfl⟩
  | remove =>
      rw [TwoWayCursor.call, TwoWayCursor.remove_eq, h]
      cases c.last with
      | none => exact .inl ⟨_, rfl⟩
      | some p => exact .inl ⟨_, rfl⟩
  | add a x =>
      rw [TwoWayCursor.call, TwoWayCursor.add_eq, h]
      exact .inl ⟨_, rfl⟩
  | forEachRemaining action s => exact .inr rfl
  | hasNext => exact .inr rfl
  | hasPrevious => exact .inr rfl
  | nextIndex => exact .inr rfl
  | previousIndex => exact .inr rfl

end TwoWayCursor

namespace Gap

open TwoWayCursor (Call Reply)

variable {g : Gap α} {d : Deque α} {k : Nat}

theorem element_of_lt (hk : k < g.list.length) : g.element k = .ok g.list[k] := by
  rw [element, List.getElem?_eq_getElem hk]

theorem On.yields (h : g.On d) (hk : k < g.list.length) : d.Yields d (g.element k) := by
  rw [element_of_lt hk, Deque.Yields, h.holds.toList_eq]
  exact ⟨⟨_, List.getElem_mem hk, rfl⟩, rfl⟩

/-- A cursor that stands in a gap of the deque is refused, and then nothing changes, or has the
effect of the call. -/
theorem On.call_harmless (h : g.On d) (call : Call σ α) :
    ((∃ e, ((g.cursorOn d).call call d).1.error? = some e) ∧
        ((g.cursorOn d).call call d).2 = (g.cursorOn d, d)) ∨
      call.Effect d ((g.cursorOn d).call call d).2.2 ((g.cursorOn d).call call d).1 := by
  have list := h.holds.toList_eq
  cases call with
  | next =>
      obtain ⟨answer, -⟩ := h.next
      rw [TwoWayCursor.call, answer]
      by_cases inside : g.place < g.list.length
      · exact .inr (h.yields inside)
      · rw [element, List.getElem?_eq_none (Nat.le_of_not_lt inside), if_neg inside]
        exact .inl ⟨⟨_, rfl⟩, rfl⟩
  | previous =>
      by_cases front : g.place = 0
      · have start : (g.cursorOn d).position = (g.cursorOn d).start := h.at_start_iff.2 front
        rw [TwoWayCursor.call, TwoWayCursor.previous_eq, if_pos start]
        exact .inl ⟨⟨_, rfl⟩, rfl⟩
      · obtain ⟨answer, -⟩ := h.previous front
        have bound := h.place_le
        rw [TwoWayCursor.call, answer]
        exact .inr (h.yields (by omega))
  | set x =>
      rw [TwoWayCursor.call]
      cases hl : g.last with
      | none =>
          rw [TwoWayCursor.set, last_cursorOn, hl]
          exact .inl ⟨⟨_, rfl⟩, rfl⟩
      | some k =>
          obtain ⟨inside, -⟩ := h.last_near k hl
          obtain ⟨d', answer, -, after⟩ := h.set (x := x) hl
          rw [answer, element_of_lt inside]
          refine .inr ⟨k, by rwa [list], ?_, ?_⟩
          · simp only [list]
          · rw [list]
            exact after.holds.toList_eq
  | remove =>
      rw [TwoWayCursor.call]
      cases hl : g.last with
      | none =>
          rw [TwoWayCursor.remove_eq, last_cursorOn, hl]
          exact .inl ⟨⟨_, rfl⟩, rfl⟩
      | some k =>
          obtain ⟨inside, -⟩ := h.last_near k hl
          obtain ⟨d', answer, after⟩ := h.remove hl
          rw [answer, element_of_lt inside]
          refine .inr ⟨k, by rwa [list], ?_, ?_⟩
          · simp only [list]
          · rw [list]
            exact after.holds.toList_eq
  | add a x =>
      rw [TwoWayCursor.call]
      cases refusal : d.refusal? a with
      | none =>
          obtain ⟨d', answer, after⟩ := h.add (x := x) refusal
          rw [answer]
          refine .inr ⟨rfl, g.place, ?_, ?_⟩
          · rw [list]
            exact h.place_le
          · rw [list]
            exact after.holds.toList_eq
      | some e =>
          rw [TwoWayCursor.add_eq, if_pos (agrees_cursorOn g d), position_cursorOn,
            h.holds.insertAt_of_refusal? h.place_le refusal]
          exact .inl ⟨⟨_, rfl⟩, rfl⟩
  | forEachRemaining action s => exact .inr rfl
  | hasNext => exact .inr rfl
  | hasPrevious => exact .inr rfl
  | nextIndex => exact .inr rfl
  | previousIndex => exact .inr rfl

end Gap

namespace TwoWayCursor

variable {c : TwoWayCursor} {d : Deque α}

theorem Reached.call_harmless (h : Reached.{u, v} c) (hd : d.WellFormed) (call : Call σ α) :
    ((∃ e, (c.call call d).1.error? = some e) ∧ (c.call call d).2 = (c, d)) ∨
      ((c.call call d).2.2.WellFormed ∧ call.Effect d (c.call call d).2.2 (c.call call d).1) := by
  cases agrees : c.agrees d with
  | false =>
      have unchanged := call_of_not_agrees agrees call
      rw [unchanged]
      obtain refused | effect := error?_of_not_agrees agrees call
      · exact .inl ⟨refused, rfl⟩
      · exact .inr ⟨hd, effect⟩
  | true =>
      obtain ⟨β, g, e, on, rfl⟩ := h.placed
      obtain ⟨here, same⟩ := on.on_of_agrees hd.holds agrees
      rw [same]
      obtain refused | effect := here.call_harmless call
      · exact .inl refused
      · exact .inr ⟨(Placed.call ⟨_, d, here, rfl⟩ hd call).2, effect⟩

end TwoWayCursor

/-- Whatever has happened to a cursor and to the deque since they last met, if they ever did: a call
is refused and leaves the deque as it is, a two-way cursor too, or it has the effect of such a call
on the elements that the deque has now. -/
theorem Deque.WellFormed.cursors_harmless {d : Deque α} (h : d.WellFormed) :
    (∀ (c : OneWayCursor) (call : OneWayCursor.Call σ α),
      let (reply, _, d') := c.call call d
      ((∃ e, reply.error? = some e) ∧ d' = d) ∨ (d'.WellFormed ∧ call.Effect d d' reply)) ∧
    ∀ c : TwoWayCursor, TwoWayCursor.Reached.{u, v} c → ∀ call : TwoWayCursor.Call σ α,
      let (reply, c', d') := c.call call d
      ((∃ e, reply.error? = some e) ∧ c' = c ∧ d' = d) ∨
        (d'.WellFormed ∧ call.Effect d d' reply) := by
  constructor
  · intro c call
    exact c.call_harmless h call
  · intro c reached call
    obtain ⟨refused, same⟩ | effect := reached.call_harmless h call
    · exact .inl ⟨refused, Prod.mk.inj same⟩
    · exact .inr effect

/-- A cursor has returned the last element of one deque. On another, with elements of another type
but the same ends, it replaces the element in the same slot. -/
theorem Deque.WellFormed.cursors_harmless_foreign :
    let d : Deque Nat := ⟨#[some 2, none, some 1], 2, 1⟩
    let e : Deque Bool := ⟨#[some false, none, some true], 2, 1⟩
    let c : TwoWayCursor := ⟨1, 2, 1, 3, some 0⟩
    let call : TwoWayCursor.Call Unit Bool := .set true
    d.WellFormed ∧ e.WellFormed ∧ TwoWayCursor.Reached.{0, 0} c ∧
      (((∃ error, (c.call call e).1.error? = some error) ∧ (c.call call e).2.1 = c ∧
          (c.call call e).2.2 = e) ∨
        ((c.call call e).2.2.WellFormed ∧
          call.Effect e (c.call call e).2.2 (c.call call e).1)) := by
  intro d e c call
  have ordered : d.WellFormed := Deque.isWellFormed_iff.1 (by decide)
  have ordered' : e.WellFormed := Deque.isWellFormed_iff.1 (by decide)
  have start : TwoWayCursor.Reached.{0, 0} ⟨0, 2, 1, 3, none⟩ :=
    .setUp ordered (show d.cursorAt 1 = .ok _ from rfl)
  have moved : TwoWayCursor.Reached.{0, 0} c :=
    start.called ordered (.next : TwoWayCursor.Call Unit Nat)
  exact ⟨ordered, ordered', moved, (cursors_harmless ordered').2 c moved call⟩

end RingDeque
