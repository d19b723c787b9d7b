import RingDeque.Proofs.PassCursor

/-!
# What a kept cursor has to show

A one-way cursor is kept while its deque changes, and then it is asked to show all that it has
left. It shows something only if it fits: its slot is that of an element, and from there to the end
of the deque there are as many elements as it has left. Then the callback sees just those elements,
whichever they are by now, as if the cursor had been on its way through this deque from the
beginning. In all other cases it sees none: there is a conflict, or a fault if the cursor has
overshot.
-/

namespace RingDeque

variable {σ : Type u} {α : Type v}

namespace Direction

variable {d : Deque α} {xs : List α} {k n : Nat}

/-- How many slots lie from `p` on to the end of the elements, counted modulo the number of
slots. -/
def distance (direction : Direction) (d : Deque α) (p : Nat) : Nat :=
  match direction with
  | .forward => (d.tail + d.slotCount - p) % d.slotCount
  | .backward => (p + d.slotCount - d.head) % d.slotCount + 1

theorem index_index (direction : Direction) (hk : k < n) :
    direction.index n (direction.index n k) = k := by
  cases direction with
  | forward => rfl
  | backward =>
      rw [index, index]
      omega

/-- An element that is visited after `k` others has all but these from its slot on. -/
theorem distance_position (h : d.Holds xs) (direction : Direction) (hk : k < xs.length) :
    direction.distance d (d.position (direction.index xs.length k)) = xs.length - k := by
  have before := direction.index_lt hk
  have place := h.steps_position (Nat.le_of_lt before)
  have inside : d.position (direction.index xs.length k) < d.slotCount :=
    Circle.forward_lt h.head_lt (Nat.le_of_lt (Nat.lt_trans before h.length_lt))
  rw [Circle.steps_eq_mod inside, Circle.steps_eq_mod h.tail_lt] at place
  cases direction with
  | forward => exact place.2
  | backward =>
      rw [distance, place.1, index]
      omega

end Direction

namespace OneWayCursor

variable {c : OneWayCursor} {d : Deque α} {action : Callback σ α Unit} {s : σ}

/-! ### Cursors that fit -/

/-- The cursor's slot is that of an element, and from there on there are as many as the cursor has
left. -/
structure Fits (c : OneWayCursor) (d : Deque α) : Prop where
  live : (d.slot c.position).isSome
  distance_eq : c.direction.distance d c.position = c.remaining

/-- The cursor goes forward, from a slot that lies more than a round beyond the back. -/
def Overshoots (c : OneWayCursor) (d : Deque α) : Prop :=
  c.direction = .forward ∧ d.tail + d.slotCount < c.position

/-- The elements that are visited last, as many as the cursor has left. -/
def due (c : OneWayCursor) (d : Deque α) : List α :=
  (c.direction.arrange d.toList).drop (d.length - c.remaining)

/-- The elements that are due, the first of them in the cursor's slot, are shown to `action`: all of
them, unless it fails. -/
structure Serves (c : OneWayCursor) (d : Deque α) (action : Callback σ α Unit) (s : σ) : Prop where
  length_due : (c.due d).length = c.remaining
  head?_due : (c.due d).head? = d.slot c.position
  result_eq : (c.forEachRemaining action d s).1.1 =
    (traverse action (c.due d) s).1.complete.map fun _ => .ok ()
  state_eq : (c.forEachRemaining action d s).2 = (traverse action (c.due d) s).2
  completes : (∀ x s, ∃ s', action x s = (.ok (), s')) →
    (c.forEachRemaining action d s).1.1 = .ok (.ok ()) ∧
      (traverse action (c.due d) s).1.values.length = c.remaining

/-- The count of the elements ahead goes below zero exactly for a cursor that has overshot. -/
theorem ahead?_eq_none_iff (h : d.WellFormed) : c.ahead? d = none ↔ c.Overshoots d := by
  obtain ⟨direction, position, remaining, last⟩ := c
  have head := h.head_lt
  rw [ahead?_eq]
  cases direction with
  | forward =>
      dsimp only
      rw [Circle.steps?_eq, ite_eq_right_iff, Overshoots]
      simp only [true_and, reduceCtorEq, imp_false, Nat.not_le]
  | backward =>
      dsimp only
      rw [Circle.steps?_eq_some (Nat.le_of_lt head)]
      exact iff_of_false (Option.some_ne_none _) fun overshot => by cases overshot.1

theorem ahead?_eq_distance (h : d.WellFormed) (inside : c.position < d.slotCount) :
    c.ahead? d = some (c.direction.distance d c.position) := by
  obtain ⟨direction, position, remaining, last⟩ := c
  rw [ahead?_eq]
  cases direction with
  | forward =>
      dsimp only at inside ⊢
      rw [Circle.steps?_eq_some (Nat.le_of_lt inside), Circle.steps_eq_mod h.tail_lt]
      rfl
  | backward =>
      dsimp only at inside ⊢
      rw [Circle.steps?_eq_some (Nat.le_of_lt h.head_lt), Circle.steps_eq_mod inside]
      rfl

/-- What the cursor asks about its slot and its count before it shows anything is whether it
fits. -/
theorem fits_iff {ahead : Nat} (h : d.WellFormed) (known : c.ahead? d = some ahead) :
    c.Fits d ↔ ((d.slot c.position).isNone || ahead != c.remaining) = false := by
  cases here : d.slot c.position with
  | none =>
      refine iff_of_false (fun fits => ?_) (by simp)
      have live := fits.live
      rw [here] at live
      contradiction
  | some x =>
      rw [ahead?_eq_distance h (Deque.lt_slotCount_of_slot here)] at known
      cases known
      simp only [Option.isNone_some, Bool.false_or, bne_eq_false_iff_eq]
      exact ⟨Fits.distance_eq, fun count => ⟨by rw [here]; rfl, count⟩⟩

theorem forEachRemaining_of_not_fits (h : d.WellFormed) (some_left : 0 < c.remaining)
    (unfit : ¬c.Fits d) (inside : ¬c.Overshoots d) : c.forEachRemaining action d s =
      ((.ok (.error .concurrentModification), { c with remaining := 0 }), s) := by
  obtain ⟨ahead, known⟩ := Option.ne_none_iff_exists'.1 (mt (ahead?_eq_none_iff h).1 inside)
  rw [fits_iff h known, Bool.not_eq_false] at unfit
  rw [OneWayCursor.forEachRemaining_eq, if_neg (Nat.ne_of_gt some_left), known]
  dsimp only
  rw [if_pos unfit]

/-! ### Cursors that have overshot -/

theorem Overshoots.slot_eq_none (overshot : c.Overshoots d) : d.slot c.position = none :=
  Deque.slot_eq_none_of_le
    (Nat.le_of_lt (Nat.lt_of_le_of_lt (Nat.le_add_left ..) overshot.2))

theorem Overshoots.forEachRemaining_eq (overshot : c.Overshoots d) (h : d.WellFormed)
    (some_left : 0 < c.remaining) (action : Callback σ α Unit) (s : σ) :
    c.forEachRemaining action d s = ((.error .belowZero, { c with remaining := 0 }), s) := by
  rw [OneWayCursor.forEachRemaining_eq, if_neg (Nat.ne_of_gt some_left),
    (ahead?_eq_none_iff h).2 overshot]

/-! ### Cursors on their way -/

/-- A cursor that fits stands on the element that is visited first of those that are due. -/
theorem Fits.position_eq (hf : c.Fits d) (h : d.WellFormed) :
    0 < c.remaining ∧ c.remaining ≤ d.length ∧
      c.position = d.position (c.direction.index d.length (d.length - c.remaining)) := by
  obtain ⟨x, here⟩ := Option.isSome_iff_exists.1 hf.live
  have count := h.holds.length_eq
  obtain ⟨j, hj, place⟩ := Circle.exists_forward h.head_lt (Deque.lt_slotCount_of_slot here)
  have live : j < d.length := by
    rw [← h.isSome_position hj, Deque.position, ← place]
    exact hf.live
  have before := c.direction.index_lt live
  have visited :
    c.position = d.position (c.direction.index d.length (c.direction.index d.length j)) := by
    rw [c.direction.index_index live]
    exact place
  have distance := c.direction.distance_position h.holds (count ▸ before)
  rw [← count, ← visited, hf.distance_eq] at distance
  have others : d.length - c.remaining = c.direction.index d.length j := by omega
  exact ⟨by omega, by omega, others ▸ visited⟩

theorem Fits.length_due (hf : c.Fits d) (h : d.WellFormed) : (c.due d).length = c.remaining := by
  obtain ⟨-, few, -⟩ := hf.position_eq h
  rw [due, List.length_drop, Direction.length_arrange, ← h.holds.length_eq]
  omega

theorem Fits.head?_due (hf : c.Fits d) (h : d.WellFormed) :
    (c.due d).head? = d.slot c.position := by
  obtain ⟨some_left, few, place⟩ := hf.position_eq h
  have first : d.length - c.remaining < d.length := by omega
  have before := c.direction.index_lt first
  rw [h.holds.length_eq] at place before first
  rw [due, List.head?_drop, h.holds.length_eq, place,
    h.holds.slot_position (Nat.lt_trans before h.holds.length_lt),
      ← c.direction.getElem?_arrange before,
    c.direction.index_index first]

/-! ### The pass of a cursor that fits -/

/-- The pass in the midst of which the cursor would be, had it passed whatever is not due. -/
def midst (c : OneWayCursor) (d : Deque α) : Pass α where
  earlier := ((c.direction.arrange d.toList).take (d.length - c.remaining)).map (·, true)
  current := none
  ahead := c.due d
  skipped := []

theorem kept_midst (c : OneWayCursor) (d : Deque α) :
    (c.midst d).kept = (c.direction.arrange d.toList).take (d.length - c.remaining) := by
  have all (ys : List α) : ((ys.map (·, true)).filter (·.2)).map (·.1) = ys := by
    induction ys with
    | nil => rfl
    | cons y ys ih => simpa using ih
  exact all _

theorem present_midst (c : OneWayCursor) (d : Deque α) :
    (c.midst d).present = c.direction.arrange d.toList := by
  rw [Pass.present, kept_midst]
  simp only [midst, due, Option.toList_none, List.append_nil, List.take_append_drop]

theorem passed_midst (h : d.WellFormed) (c : OneWayCursor) :
    (c.midst d).passed = d.length - c.remaining := by
  rw [Pass.passed, kept_midst, List.length_take, Direction.length_arrange, ← h.holds.length_eq]
  exact Nat.min_eq_left (Nat.sub_le ..)

/-- What a cursor returned last matters to a removal only. -/
theorem visit_forget (action : Callback σ α Unit) (d : Deque α) (n p : Nat) (c : OneWayCursor)
    (s : σ) (last : Option Nat) :
    (visit action d n p { c with last := last } s).1.1 = (visit action d n p c s).1.1 ∧
      (visit action d n p { c with last := last } s).2 = (visit action d n p c s).2 := by
  cases n with
  | zero => exact ⟨rfl, rfl⟩
  | succ n =>
      rw [visit_succ, visit_succ]
      cases d.slot p with
      | none => exact ⟨rfl, rfl⟩
      | some x =>
          dsimp only
          rcases action x s with ⟨_ | _, s'⟩
          · exact ⟨rfl, rfl⟩
          · exact ⟨rfl, rfl⟩

theorem Fits.visit_eq (hf : c.Fits d) (h : d.WellFormed) (action : Callback σ α Unit) (s : σ) :
    (visit action d c.remaining c.position { c with remaining := 0 } s).1.1 =
        (traverse action (c.due d) s).1.complete.map (fun _ => ()) ∧
      (visit action d c.remaining c.position { c with remaining := 0 } s).2 =
        (traverse action (c.due d) s).2 := by
  have marks : (c.midst d).Marks { c with remaining := 0, last := none } d := by
    refine ⟨?_, rfl⟩
    rw [present_midst, Direction.arrange_arrange]
    exact h.holds
  have here : c.position = (c.midst d).slotAhead c.direction d := by
    rw [Pass.slotAhead, present_midst, Direction.length_arrange, ← h.holds.length_eq,
      passed_midst h]
    exact (hf.position_eq h).2.2
  obtain ⟨c', visited, -⟩ := marks.visit action s fun _ => here
  change visit action d (c.due d).length c.position _ s = _ at visited
  rw [hf.length_due h] at visited
  obtain ⟨answer, state⟩ :=
    visit_forget action d c.remaining c.position { c with remaining := 0 } s none
  rw [visited] at answer state
  exact ⟨answer.symm, state.symm⟩

theorem Fits.forEachRemaining_eq (hf : c.Fits d) (h : d.WellFormed) (action : Callback σ α Unit)
    (s : σ) :
    (c.forEachRemaining action d s).1.1 =
        (traverse action (c.due d) s).1.complete.map (fun _ => .ok ()) ∧
      (c.forEachRemaining action d s).2 = (traverse action (c.due d) s).2 := by
  have some_left := (hf.position_eq h).1
  obtain ⟨x, here⟩ := Option.isSome_iff_exists.1 hf.live
  have known := ahead?_eq_distance (c := c) h (Deque.lt_slotCount_of_slot here)
  obtain ⟨answer, state⟩ := hf.visit_eq h action s
  rw [OneWayCursor.forEachRemaining_eq, if_neg (Nat.ne_of_gt some_left), known]
  dsimp only
  rw [(fits_iff h known).1 hf, if_neg Bool.false_ne_true]
  generalize visit action d c.remaining c.position { c with remaining := 0 } s =
    outcome at answer state ⊢
  obtain ⟨⟨result, c'⟩, s'⟩ := outcome
  dsimp only at answer state
  rw [answer, state]
  cases (traverse action (c.due d) s).1.complete with
  | error fault => exact ⟨rfl, rfl⟩
  | ok answers => exact ⟨rfl, rfl⟩

theorem Fits.serves (hf : c.Fits d) (h : d.WellFormed) (action : Callback σ α Unit) (s : σ) :
    c.Serves d action s := by
  obtain ⟨result, state⟩ := hf.forEachRemaining_eq h action s
  have length := hf.length_due h
  refine ⟨length, hf.head?_due h, result, state, ?_⟩
  intro completes
  have all := Pass.fault_traverse completes (c.due d) s
  constructor
  · rw [result, Trace.complete, all]
    rfl
  · rw [(length_traverse action (c.due d) s).2 all, length]

end OneWayCursor

end RingDeque
