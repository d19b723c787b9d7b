import RingDeque.Deque.Ends
import RingDeque.Proofs.Growth

/-!
# What the two ends do to the elements

An addition fills the slot in front of `head` or at `tail`. If that was the last free slot, the
deque grows and then holds the new element too; if it cannot grow, taking the element out again
restores the deque exactly.
-/

namespace RingDeque.Deque

variable {α : Type u} {a : Allocator} {d : Deque α} {x y : α} {xs : List α} {k p : Nat}

/-- The deque after `x` was written in front of `head`. -/
def filledFront (x : α) (d : Deque α) : Deque α :=
  let head := Circle.prev d.head d.slotCount
  { d with slots := d.slots.put head (some x), head := head }

/-- The deque after `x` was written at `tail`. -/
def filledBack (x : α) (d : Deque α) : Deque α :=
  { d with slots := d.slots.put d.tail (some x), tail := Circle.next d.tail d.slotCount }

theorem tryPushFront_eq (a : Allocator) (x : α) (d : Deque α) :
    d.tryPushFront a x =
      if (d.filledFront x).head = (d.filledFront x).tail then
        match (d.filledFront x).grow a 1 with
        | (.ok (), grown) => (.ok (), grown)
        | (.error e, full) =>
          (.error e, { full with
            slots := full.slots.put full.head none
            head := Circle.next full.head full.slotCount })
      else
        (.ok (), d.filledFront x) := by
  rw [tryPushFront, tryPushFrontOnWords, Calculation.exact_bind]
  refine (Calculation.exact_ite ..).trans (ite_congr rfl (fun _ => ?_) fun _ => rfl)
  change (((d.filledFront x).growOnWords a 1).bind _).exact = _
  rw [Calculation.exact_bind, exact_growOnWords]
  rcases (d.filledFront x).grow a 1 with ⟨e | ⟨⟩, full⟩
  · exact Calculation.exact_bind ..
  · rfl

theorem tryPushBack_eq (a : Allocator) (x : α) (d : Deque α) :
    d.tryPushBack a x =
      if (d.filledBack x).head = (d.filledBack x).tail then
        match (d.filledBack x).grow a 1 with
        | (.ok (), grown) => (.ok (), grown)
        | (.error e, full) =>
          let tail := Circle.prev full.tail full.slotCount
          (.error e, { full with slots := full.slots.put tail none, tail := tail })
      else
        (.ok (), d.filledBack x) := by
  rw [tryPushBack, tryPushBackOnWords, Calculation.exact_bind]
  refine (Calculation.exact_ite ..).trans (ite_congr rfl (fun _ => ?_) fun _ => rfl)
  change (((d.filledBack x).growOnWords a 1).bind _).exact = _
  rw [Calculation.exact_bind, exact_growOnWords]
  rcases (d.filledBack x).grow a 1 with ⟨e | ⟨⟩, full⟩
  · exact Calculation.exact_bind ..
  · rfl

@[simp] theorem slotCount_filledFront (x : α) (d : Deque α) :
    (d.filledFront x).slotCount = d.slotCount :=
  Slots.size_put ..

@[simp] theorem slotCount_filledBack (x : α) (d : Deque α) :
    (d.filledBack x).slotCount = d.slotCount :=
  Slots.size_put ..

theorem Holds.filledFront (h : d.Holds xs) : (d.filledFront x).Stores (x :: xs) where
  head_lt := by
    rw [slotCount_filledFront]
    exact Circle.prev_lt h.head_lt
  length_le := by
    rw [slotCount_filledFront]
    exact h.length_lt
  tail_eq := by
    rw [slotCount_filledFront]
    exact h.tail_eq.trans (Circle.forward_prev_succ h.head_lt h.length_lt).symm
  view_eq k hk := by
    rw [slotCount_filledFront] at hk
    have front := Circle.prev_lt h.head_lt
    have written := Slots.view_put (i := 0) (size_slots d) front h.slotCount_pos hk (some x)
    rw [Circle.forward_zero front] at written
    refine written.trans ?_
    cases k with
    | zero => rfl
    | succ k =>
        rw [if_neg (by omega), List.getElem?_cons_succ, ← h.view_eq k (by omega)]
        exact Slots.view_prev_succ (size_slots d) h.head_lt (by omega)

theorem Holds.filledBack (h : d.Holds xs) : (d.filledBack x).Stores (xs ++ [x]) where
  head_lt := by
    rw [slotCount_filledBack]
    exact h.head_lt
  length_le := by
    rw [slotCount_filledBack, List.length_append]
    exact h.length_lt
  tail_eq := by
    rw [slotCount_filledBack, List.length_append]
    change Circle.next d.tail d.slotCount = Circle.forward d.head (xs.length + 1) d.slotCount
    rw [h.tail_eq, Circle.next_forward h.head_lt h.length_lt]
  view_eq k hk := by
    rw [slotCount_filledBack] at hk
    change (d.slots.put d.tail (some x)).view d.head k = _
    rw [h.tail_eq, Slots.view_put (size_slots d) h.head_lt h.length_lt hk, h.view_eq k hk]
    grind

/-- A deque is full when the slot behind its last element is that of the first. -/
theorem Stores.head_eq_tail_iff (h : d.Stores xs) (hx : xs ≠ []) :
    d.head = d.tail ↔ xs.length = d.slotCount := by
  have head := h.head_lt
  have length := h.length_le
  have some : 0 < xs.length := List.length_pos_iff.2 hx
  rw [h.tail_eq]
  simp only [Circle.forward_eq]
  split <;> omega

theorem Stores.holds (h : d.Stores xs) (hl : xs.length ≠ d.slotCount) : d.Holds xs :=
  ⟨h, Nat.lt_of_le_of_ne h.length_le hl⟩

/-- A full deque has room for one more exactly if it is granted a larger buffer; the filled deque
asks for the same size, because it has as many slots. -/
theorem room_iff_of_full {full : Deque α} (hl : xs.length + 1 = d.slotCount)
    (hf : full.slotCount = d.slotCount) :
    d.Room a (xs.length + 1) ↔
      ∃ size, full.grownSlotCount a 1 = .ok size ∧ a.grants size = true := by
  have same : full.grownSlotCount a 1 = d.grownSlotCount a 1 := by
    rw [grownSlotCount_eq, grownSlotCount_eq, jump_eq, jump_eq, hf]
  rw [room_iff_of_le (by omega), same, show xs.length + 1 + 1 - d.slotCount = 1 by omega]

theorem grow_filled_refused {full : Deque α} (hl : xs.length + 1 = d.slotCount)
    (hf : full.slotCount = d.slotCount) (hr : ¬d.Room a (xs.length + 1)) :
    ∃ e, NoRoom e ∧ full.grow a 1 = (.error e, full) := by
  apply grow_of_refused
  intro size hsize
  rw [room_iff_of_full hl hf] at hr
  cases answer : a.grants size with
  | false => rfl
  | true => exact absurd ⟨size, hsize, answer⟩ hr

theorem Holds.not_full_of_not_room (h : d.Holds xs) (hr : ¬d.Room a (xs.length + 1)) :
    xs.length + 1 = d.slotCount := by
  have length := h.length_lt
  by_cases fits : xs.length + 1 < d.slotCount
  · exact absurd (.inl fits) hr
  · omega

theorem Holds.tryPushFront (h : d.Holds xs) (hr : d.Room a (xs.length + 1)) :
    ∃ d', d.tryPushFront a x = (.ok (), d') ∧ d'.Holds (x :: xs) := by
  have filled := h.filledFront (x := x)
  have full := filled.head_eq_tail_iff (List.cons_ne_nil x xs)
  rw [slotCount_filledFront, List.length_cons] at full
  rw [tryPushFront_eq]
  by_cases last : (d.filledFront x).head = (d.filledFront x).tail
  · obtain ⟨size, hsize, hg⟩ := (room_iff_of_full (full.1 last) (slotCount_filledFront x d)).1 hr
    obtain ⟨d', hd', holds, -⟩ := filled.grow_of_granted Nat.one_pos hsize hg
    exact ⟨d', by rw [if_pos last, hd'], holds⟩
  · refine ⟨d.filledFront x, if_neg last, filled.holds ?_⟩
    rw [slotCount_filledFront]
    exact fun length => last (full.2 length)

/-- Without room the new element is taken out again, which restores the deque. -/
theorem Holds.tryPushFront_refused (h : d.Holds xs) (hr : ¬d.Room a (xs.length + 1)) :
    ∃ e, NoRoom e ∧ d.tryPushFront a x = (.error e, d) := by
  have length := h.not_full_of_not_room hr
  have last := (h.filledFront (x := x)).head_eq_tail_iff (List.cons_ne_nil x xs)
  rw [slotCount_filledFront, List.length_cons] at last
  obtain ⟨e, he, refused⟩ := grow_filled_refused length (slotCount_filledFront x d) hr
  have free : d.slots.at? (Circle.prev d.head d.slotCount) = none := by
    rw [Circle.prev_eq_forward h.head_lt]
    exact (h.view_eq _ (by omega)).trans (List.getElem?_eq_none (by omega))
  refine ⟨e, he, ?_⟩
  rw [tryPushFront_eq, if_pos (last.2 length), refused]
  dsimp only
  rw [slotCount_filledFront]
  simp only [Deque.filledFront, Slots.put_put, Slots.put_none free, Circle.next_prev h.head_lt]

theorem Holds.tryPushBack (h : d.Holds xs) (hr : d.Room a (xs.length + 1)) :
    ∃ d', d.tryPushBack a x = (.ok (), d') ∧ d'.Holds (xs ++ [x]) := by
  have filled := h.filledBack (x := x)
  have full := filled.head_eq_tail_iff (by simp)
  rw [slotCount_filledBack, List.length_append, List.length_singleton] at full
  rw [tryPushBack_eq]
  by_cases last : (d.filledBack x).head = (d.filledBack x).tail
  · obtain ⟨size, hsize, hg⟩ := (room_iff_of_full (full.1 last) (slotCount_filledBack x d)).1 hr
    obtain ⟨d', hd', holds, -⟩ := filled.grow_of_granted Nat.one_pos hsize hg
    exact ⟨d', by rw [if_pos last, hd'], holds⟩
  · refine ⟨d.filledBack x, if_neg last, filled.holds ?_⟩
    rw [slotCount_filledBack, List.length_append]
    exact fun length => last (full.2 length)

theorem Holds.tryPushBack_refused (h : d.Holds xs) (hr : ¬d.Room a (xs.length + 1)) :
    ∃ e, NoRoom e ∧ d.tryPushBack a x = (.error e, d) := by
  have length := h.not_full_of_not_room hr
  have last := (h.filledBack (x := x)).head_eq_tail_iff (by simp)
  rw [slotCount_filledBack, List.length_append, List.length_singleton] at last
  obtain ⟨e, he, refused⟩ := grow_filled_refused length (slotCount_filledBack x d) hr
  have free : d.slots.at? d.tail = none := by
    rw [h.tail_eq]
    exact (h.view_eq _ h.length_lt).trans (List.getElem?_eq_none (Nat.le_refl _))
  refine ⟨e, he, ?_⟩
  rw [tryPushBack_eq, if_pos (last.2 length), refused]
  dsimp only
  rw [slotCount_filledBack]
  simp only [Deque.filledBack, Circle.prev_next h.tail_lt, Slots.put_put, Slots.put_none free]

theorem Holds.popFront (h : d.Holds xs) :
    ∃ d', d.popFront = (xs.head?, d') ∧ d'.Holds xs.tail := by
  have front : d.slot d.head = xs[0]? := by
    have place := h.slot_forward h.slotCount_pos
    rwa [Circle.forward_zero h.head_lt] at place
  rw [Deque.popFront_eq, front]
  cases xs with
  | nil => exact ⟨d, rfl, h⟩
  | cons x xs =>
      have length := h.length_lt
      rw [List.length_cons] at length
      have size : (d.slots.put d.head none).size = d.slotCount := Slots.size_put ..
      refine ⟨_, rfl, holds_mk size (Circle.next_lt h.head_lt) (Nat.lt_of_succ_lt length) ?_ ?_⟩
      · exact h.tail_eq.trans (Circle.forward_next h.head_lt (Nat.lt_of_succ_lt length)).symm
      · intro k hk
        have emptied {j} (hj : j < d.slotCount) := Slots.view_put (i := 0) (size_slots d) h.head_lt
          h.slotCount_pos hj none
        rw [Circle.forward_zero h.head_lt] at emptied
        rw [Slots.view_next size h.head_lt hk]
        by_cases around : k + 1 < d.slotCount
        · rw [emptied around, if_neg (by omega), h.view_eq _ around]
          rfl
        · rw [show k + 1 = d.slotCount by omega, Slots.view_size size h.head_lt,
            emptied h.slotCount_pos, if_pos rfl]
          exact (List.getElem?_eq_none (by rw [List.tail_cons]; omega)).symm

theorem Holds.popBack (h : d.Holds xs) :
    ∃ d', d.popBack = (xs.getLast?, d') ∧ d'.Holds xs.dropLast := by
  rw [Deque.popBack_eq]
  rcases List.eq_nil_or_concat xs with rfl | ⟨xs, x, rfl⟩
  · have free : d.slot (Circle.prev d.tail d.slotCount) = none := by
      rw [h.tail_eq, List.length_nil, Circle.forward_zero h.head_lt,
        Circle.prev_eq_forward h.head_lt, h.slot_forward (by have := h.slotCount_pos; omega)]
      rfl
    exact ⟨d, by rw [free]; rfl, h⟩
  · rw [List.concat_eq_append] at h ⊢
    have length := h.length_lt
    rw [List.length_append, List.length_singleton] at length
    have last : Circle.prev d.tail d.slotCount = Circle.forward d.head xs.length d.slotCount := by
      rw [h.tail_eq, List.length_append, List.length_singleton,
        Circle.prev_forward_succ h.head_lt (by omega)]
    have back : d.slot (Circle.prev d.tail d.slotCount) = some x := by
      rw [last, h.slot_forward (by omega)]
      simp
    simp only [back, List.getLast?_append, List.getLast?_singleton, List.dropLast_concat]
    refine ⟨_, rfl, holds_mk (Slots.size_put ..) h.head_lt (Nat.lt_of_succ_lt length) last ?_⟩
    intro k hk
    rw [last, Slots.view_put (size_slots d) h.head_lt (by omega) hk, h.view_eq k hk]
    grind

/-- Replacing what a slot holds replaces the element whose slot it is. -/
theorem Holds.replaceSlot (h : d.Holds xs) (hk : k < d.slotCount) :
    ∃ d', d.replaceSlot (d.position k) x = (xs[k]?, d') ∧ d'.Holds (xs.set k x) := by
  rw [Deque.replaceSlot, h.slot_position hk]
  cases place : xs[k]? with
  | none =>
      rw [List.getElem?_eq_none_iff] at place
      exact ⟨d, rfl, by rwa [List.set_eq_of_length_le place]⟩
  | some y =>
      refine ⟨_, rfl, holds_mk (Slots.size_put ..) h.head_lt ?_ ?_ ?_⟩
      · rw [List.length_set]
        exact h.length_lt
      · rw [List.length_set]
        exact h.tail_eq
      · intro j hj
        rw [position, Slots.view_put (size_slots d) h.head_lt hk hj, h.view_eq j hj]
        grind

theorem layout_replaceSlot (p : Nat) (x : α) (d : Deque α) :
    (d.replaceSlot p x).2.head = d.head ∧ (d.replaceSlot p x).2.tail = d.tail ∧
      (d.replaceSlot p x).2.slotCount = d.slotCount := by
  rw [replaceSlot]
  cases d.slot p with
  | none => exact ⟨rfl, rfl, rfl⟩
  | some y => exact ⟨rfl, rfl, Slots.size_put ..⟩

/-- A slot outside the buffer is not written. -/
theorem Holds.replaceSlot_any (h : d.Holds xs) (p : Nat) :
    ∃ ys, (d.replaceSlot p x).2.Holds ys := by
  by_cases hp : p < d.slotCount
  · obtain ⟨k, hk, rfl⟩ := Circle.exists_forward h.head_lt hp
    obtain ⟨d', hd', holds⟩ := h.replaceSlot (x := x) hk
    rw [position] at hd'
    exact ⟨_, by rwa [hd']⟩
  · rw [Deque.replaceSlot, slot, Slots.at?_eq_none_of_size_le _ (Nat.le_of_not_lt hp)]
    exact ⟨xs, h⟩

theorem Holds.clear (h : d.Holds xs) : d.clear.Holds [] := by
  refine holds_mk (Slots.size_clear ..) h.slotCount_pos h.slotCount_pos
    (Circle.forward_zero h.slotCount_pos).symm ?_
  intro p hp
  obtain ⟨k, hk, hpk⟩ := Circle.exists_forward h.head_lt hp
  have cleared := Slots.view_clear 0 xs.length (size_slots d) h.head_lt
    (by have := h.length_lt; omega) hk
  rw [Circle.forward_zero h.head_lt, Slots.view_def (Slots.size_clear ..), h.view_eq k hk,
    size_slots] at cleared
  rw [Slots.view_zero (by rwa [Slots.size_clear]), h.length_eq, hpk, cleared]
  grind

end RingDeque.Deque
