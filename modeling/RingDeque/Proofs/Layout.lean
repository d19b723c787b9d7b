import RingDeque.Deque.Basic
import RingDeque.Proofs.Slots

/-!
# Which elements a deque holds

`d.Holds xs` says that the elements of `xs` stand in the slots from `head` on, in order, that every
other slot is empty, and that there is such a slot. It is `WellFormed` and `toList` in one
statement, and it determines a deque up to the place and the size of its buffer. Operations are
described by what they do to `xs`.

`Stores` leaves out the free slot. A deque that was just filled to the last slot only stores its
elements.
-/

namespace RingDeque.Deque

variable {α : Type u} {d e : Deque α} {xs ys : List α} {k p : Nat}

/-- The elements `xs` stand in the slots from `head` on, and no other slot is occupied. -/
structure Stores (d : Deque α) (xs : List α) : Prop where
  head_lt : d.head < d.slotCount
  length_le : xs.length ≤ d.slotCount
  tail_eq : d.tail = Circle.forward d.head xs.length d.slotCount
  view_eq : ∀ k < d.slotCount, d.slots.view d.head k = xs[k]?

/-- The elements are `xs`, and at least one slot is free. -/
structure Holds (d : Deque α) (xs : List α) : Prop extends Stores d xs where
  length_lt : xs.length < d.slotCount

theorem size_slots (d : Deque α) : d.slots.size = d.slotCount := rfl

/-- Where the elements stand depends on the front slot and the number of slots. -/
theorem position_congr {β : Type v} {d : Deque α} {e : Deque β} (head : e.head = d.head)
    (size : e.slotCount = d.slotCount) : e.position = d.position := by
  funext k
  rw [position, position, head, size]

/-- A deque is known by the view from its front element. -/
theorem holds_mk {slots : Slots α} {head tail m : Nat} (size : slots.size = m) (head_lt : head < m)
    (length_lt : xs.length < m) (tail_eq : tail = Circle.forward head xs.length m)
    (view_eq : ∀ k < m, slots.view head k = xs[k]?) : (Deque.mk slots head tail).Holds xs := by
  subst size
  exact ⟨⟨head_lt, Nat.le_of_lt length_lt, tail_eq, view_eq⟩, length_lt⟩

theorem length_filterMap_range {f : Nat → Option α} {n : Nat} (hf : ∀ i < n, (f i).isSome) :
    ((List.range n).filterMap f).length = n := by
  rw [List.length_filterMap_eq_countP, List.countP_eq_length.2 (by simpa using hf),
    List.length_range]

/-- Readings that are all present keep their places in the list of readings. -/
theorem getElem?_filterMap_range {f : Nat → Option α} {n : Nat} (hf : ∀ i < n, (f i).isSome)
    (k : Nat) : ((List.range n).filterMap f)[k]? = if k < n then f k else none := by
  induction n with
  | zero => simp
  | succ n ih =>
      obtain ⟨x, hx⟩ := Option.isSome_iff_exists.1 (hf n (by omega))
      have before : ∀ i < n, (f i).isSome := fun i hi => hf i (by omega)
      rw [List.range_succ, List.filterMap_append, List.getElem?_append,
        length_filterMap_range before, ih before, List.filterMap_cons_some hx]
      grind

namespace Stores

theorem slot_forward (h : d.Stores xs) (hk : k < d.slotCount) :
    d.slot (Circle.forward d.head k d.slotCount) = xs[k]? :=
  h.view_eq k hk

/-- The place of a slot decides what it holds. -/
theorem slot_eq (h : d.Stores xs) (hp : p < d.slotCount) :
    d.slot p = xs[Circle.steps d.head p d.slotCount]? := by
  obtain ⟨k, hk, rfl⟩ := Circle.exists_forward h.head_lt hp
  rw [h.slot_forward hk, Circle.steps_forward h.head_lt hk]

end Stores

namespace Holds

theorem slotCount_pos (h : d.Holds xs) : 0 < d.slotCount :=
  Nat.zero_lt_of_lt h.head_lt

theorem tail_lt (h : d.Holds xs) : d.tail < d.slotCount := by
  rw [h.tail_eq]
  exact Circle.forward_lt h.head_lt h.length_le

theorem length_eq (h : d.Holds xs) : d.length = xs.length := by
  rw [length, h.tail_eq, Circle.steps_forward h.head_lt h.length_lt]

theorem slot_position (h : d.Holds xs) (hk : k < d.slotCount) : d.slot (d.position k) = xs[k]? :=
  h.slot_forward hk

theorem position_length (h : d.Holds xs) : d.position xs.length = d.tail :=
  h.tail_eq.symm

theorem slot_tail (h : d.Holds xs) : d.slot d.tail = none := by
  have place := h.slot_position h.length_lt
  rwa [h.position_length, List.getElem?_eq_none (Nat.le_refl _)] at place

theorem get?_eq (h : d.Holds xs) (k : Nat) : d.get? k = xs[k]? := by
  rw [Deque.get?_eq, h.length_eq]
  split
  · next hk => exact h.slot_position (Nat.lt_trans hk h.length_lt)
  · next hk => exact (List.getElem?_eq_none (Nat.le_of_not_lt hk)).symm

theorem toList_eq (h : d.Holds xs) : d.toList = xs := by
  have present : ∀ i < d.length, (d.slot (d.position i)).isSome := by
    intro i hi
    rw [h.length_eq] at hi
    rw [h.slot_position (Nat.lt_trans hi h.length_lt)]
    simpa using hi
  apply List.ext_getElem?
  intro k
  rw [toList, getElem?_filterMap_range present, ← h.get?_eq, Deque.get?_eq]

/-- The free slots in front of the first element, and the elements behind them. -/
theorem view_backward (h : d.Holds xs) {n : Nat} (hn : xs.length + n ≤ d.slotCount)
    (hk : k < d.slotCount) :
    d.slots.view (Circle.backward d.head n d.slotCount) k =
      if k < n then none else xs[k - n]? := by
  rw [Slots.view_backward (size_slots d) h.head_lt (by omega) hk]
  split
  · rw [h.view_eq _ (by omega), List.getElem?_eq_none (by omega)]
  · rw [h.view_eq _ (by omega)]

/-- The elements run past the end of the buffer when they fill it up to there. -/
theorem isWrapped_iff (h : d.Holds xs) :
    d.isWrapped = true ↔ d.slotCount ≤ d.head + xs.length := by
  have head := h.head_lt
  have length := h.length_lt
  rw [isWrapped, decide_eq_true_eq, h.tail_eq]
  simp only [Circle.forward_eq]
  split <;> omega

theorem wellFormed (h : d.Holds xs) : d.WellFormed where
  head_lt := h.head_lt
  tail_lt := h.tail_lt
  isSome_slot_iff p hp := by
    rw [h.slot_eq hp, h.length_eq]
    simp

/-- The elements, the first slot and the number of slots leave nothing open. -/
theorem ext (h : d.Holds xs) (h' : e.Holds xs) (head : d.head = e.head)
    (size : d.slotCount = e.slotCount) : d = e := by
  have tail : d.tail = e.tail := by rw [h.tail_eq, h'.tail_eq, head, size]
  have slots : d.slots = e.slots := by
    apply Array.ext size
    intro p hp hp'
    have same : d.slot p = e.slot p := by
      rw [h.slot_eq hp, h'.slot_eq hp', head, size]
    rwa [slot, slot, Slots.at?_eq_getElem hp, Slots.at?_eq_getElem hp'] at same
  cases d
  cases e
  simp_all

end Holds

theorem WellFormed.isSome_position (h : d.WellFormed) (hk : k < d.slotCount) :
    (d.slot (d.position k)).isSome ↔ k < d.length := by
  rw [position, h.isSome_slot_iff _ (Circle.forward_lt h.head_lt (Nat.le_of_lt hk)),
    Circle.steps_forward h.head_lt hk]

theorem WellFormed.length_lt (h : d.WellFormed) : d.length < d.slotCount :=
  Circle.steps_lt h.head_lt h.tail_lt

/-- A deque in order holds the elements that it lists. -/
theorem WellFormed.holds (h : d.WellFormed) : d.Holds d.toList := by
  have present : ∀ i < d.length, (d.slot (d.position i)).isSome := fun i hi =>
    (h.isSome_position (Nat.lt_trans hi h.length_lt)).2 hi
  have count : d.toList.length = d.length := length_filterMap_range present
  refine ⟨⟨h.head_lt, ?_, ?_, ?_⟩, ?_⟩
  · rw [count]
    exact Nat.le_of_lt h.length_lt
  · rw [count]
    exact (Circle.forward_steps h.head_lt h.tail_lt).symm
  · intro k hk
    rw [toList, getElem?_filterMap_range present]
    split
    · rfl
    · next hlen =>
        change d.slot (d.position k) = none
        simpa [hlen] using h.isSome_position hk
  · rw [count]
    exact h.length_lt

theorem wellFormed_iff : d.WellFormed ↔ ∃ xs, d.Holds xs :=
  ⟨fun h => ⟨_, h.holds⟩, fun ⟨_, h⟩ => h.wellFormed⟩

/-- The check looks at everything that the invariant speaks of. -/
theorem isWellFormed_iff : d.isWellFormed = true ↔ d.WellFormed := by
  constructor
  · intro h
    simp only [isWellFormed, Bool.and_eq_true, decide_eq_true_eq, fits_iff] at h
    obtain ⟨⟨⟨⟨⟨_, head⟩, tail⟩, _⟩, _⟩, fits⟩ := h
    exact ⟨head, tail, fits⟩
  · intro h
    have occupied : d.slotCount ≠ 0 := Nat.ne_of_gt h.holds.slotCount_pos
    simp only [isWellFormed, Bool.and_eq_true, decide_eq_true_eq, fits_iff, h.holds.slot_tail]
    exact ⟨⟨⟨⟨⟨by simpa using occupied, h.head_lt⟩, h.tail_lt⟩, h.length_lt⟩, rfl⟩,
      h.isSome_slot_iff⟩

end RingDeque.Deque
