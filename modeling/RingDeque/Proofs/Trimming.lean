import RingDeque.Proofs.Growth

/-!
# What a trim leaves

A trim gives up all free slots but one. It looks only at their number: where there are some to give
up it lays the elements out from slot `0` of a smaller buffer, and where there are none it returns
the deque as it is. So no slot is left to give up in either case, and a second trim finds nothing to
do. But elements that wrap in a buffer of just their size still wrap afterwards. `Trimmed` says all
this, and in particular exactly when the elements begin at slot `0`.
-/

namespace RingDeque.Deque

variable {α : Type u} {a : Allocator} {d d' : Deque α} {xs : List α}

/-- The elements begin at slot `0` and do not wrap. -/
structure FromZero (d : Deque α) : Prop where
  head_eq : d.head = 0
  tail_eq : d.tail = d.length
  straight : d.isWrapped = false

/-- What is left of `d` when it was trimmed. -/
structure Trimmed (d d' : Deque α) : Prop where
  wellFormed : d'.WellFormed
  toList_eq : d'.toList = d.toList
  slotCount_eq : d'.slotCount = d'.length + 1
  fromZero_iff : d'.FromZero ↔ d.length + 1 < d.slotCount ∨ d.head = 0
  again : ∀ a, d'.tryTrimToSize a = (.ok (), d')

theorem Holds.fromZero_iff (h : d.Holds xs) : d.FromZero ↔ d.head = 0 := by
  constructor
  · exact FromZero.head_eq
  · intro head
    have tail : d.tail = d.length := by
      rw [h.tail_eq, head, Circle.zero_forward h.length_lt, h.length_eq]
    refine ⟨head, tail, ?_⟩
    rw [isWrapped, head]
    exact decide_eq_false (Nat.not_lt_zero _)

theorem tryTrimToSize_of_tight (tight : d.slotCount = d.length + 1) (a : Allocator) :
    d.tryTrimToSize a = (.ok (), d) :=
  (d.tryTrimToSize_eq a).trans (if_neg (Nat.not_lt_of_le (Nat.le_of_eq tight)))

/-- A buffer without slots to give up is kept, wherever the elements begin. -/
theorem Holds.trimmed_self (h : d.Holds xs) (tight : d.slotCount = d.length + 1) : Trimmed d d where
  wellFormed := h.wellFormed
  toList_eq := rfl
  slotCount_eq := tight
  fromZero_iff := by
    rw [h.fromZero_iff, or_iff_right]
    exact Nat.not_lt_of_le (Nat.le_of_eq tight)
  again := tryTrimToSize_of_tight tight

/-- A fresh buffer of just the size that the elements need. -/
theorem Holds.trimmed_relayout (h : d.Holds xs) (spare : d.length + 1 < d.slotCount)
    (granted : a.grants (d.length + 1) = true) :
    ∃ d', d.relayout a (d.length + 1) d.length [] = (.ok (), d') ∧ Trimmed d d' := by
  obtain ⟨d', laid, holds, head, size⟩ :=
    h.relayout_of_granted d.length [] granted (h.length_eq ▸ Nat.lt_succ_self _)
  have elements : xs.take d.length ++ [] ++ xs.drop d.length = xs := by
    rw [List.append_nil, List.take_append_drop]
  rw [elements] at holds
  have tight : d'.slotCount = d'.length + 1 := by
    rw [size, h.length_eq, holds.length_eq]
  refine ⟨d', laid, holds.wellFormed, ?_, tight, ?_, tryTrimToSize_of_tight tight⟩
  · exact holds.toList_eq.trans h.toList_eq.symm
  · exact iff_of_true (holds.fromZero_iff.2 head) (.inl spare)

/-- A trim succeeds unless a smaller buffer is called for and refused. When it does, the elements
are the same in a buffer of one slot more than their number, and another trim changes nothing. They
begin at slot `0` if there was a slot to give up, and otherwise exactly if they did so before. A
trim that fails changes nothing. -/
theorem WellFormed.tryTrimToSize_trims (h : d.WellFormed) (a : Allocator) :
    ((d.tryTrimToSize a).1 = .ok () ↔
      (d.length + 1 < d.slotCount → a.grants (d.length + 1) = true)) ∧
    (∀ d', d.tryTrimToSize a = (.ok (), d') → Trimmed d d') ∧
    ∀ e d', d.tryTrimToSize a = (.error e, d') → e = .capacityOverflow (d.length + 1) ∧ d' = d := by
  by_cases spare : d.length + 1 < d.slotCount
  · rw [tryTrimToSize_eq, if_pos spare]
    cases granted : a.grants (d.length + 1) with
    | true =>
        obtain ⟨d', laid, trimmed⟩ := h.holds.trimmed_relayout spare granted
        rw [laid]
        refine ⟨iff_of_true rfl fun _ => rfl, ?_, nofun⟩
        rintro _ ⟨⟩
        exact trimmed
    | false =>
        rw [relayout_of_refused granted]
        refine ⟨iff_of_false nofun fun all => ?_, nofun, ?_⟩
        · exact Bool.false_ne_true (all spare)
        · rintro _ _ ⟨⟩
          exact ⟨rfl, rfl⟩
  · have length := h.length_lt
    have tight : d.slotCount = d.length + 1 := by omega
    rw [tryTrimToSize_of_tight tight]
    refine ⟨iff_of_true rfl fun more => absurd more spare, ?_, nofun⟩
    rintro _ ⟨⟩
    exact h.holds.trimmed_self tight

/-- Four elements in eight slots, two of them behind the end of the buffer. -/
theorem WellFormed.tryTrimToSize_trims_spare :
    let a := Allocator.bounded 8 100
    let d : Deque Nat := ⟨#[some 3, some 4, none, none, none, none, some 1, some 2], 6, 2⟩
    let trimmed : Deque Nat := ⟨#[some 1, some 2, some 3, some 4, none], 0, 4⟩
    d.WellFormed ∧ d.tryTrimToSize a = (.ok (), trimmed) ∧ Trimmed d trimmed ∧
      trimmed.FromZero := by
  intro a d trimmed
  have ordered : d.WellFormed := isWellFormed_iff.1 (by decide)
  have answer : d.tryTrimToSize a = (.ok (), trimmed) := Prod.ext rfl (by decide)
  have left := (tryTrimToSize_trims ordered a).2.1 trimmed answer
  exact ⟨ordered, answer, left, left.fromZero_iff.2 (.inl (by decide))⟩

/-- Three elements that wrap in a buffer of four slots. The trim succeeds and leaves them there. -/
theorem WellFormed.tryTrimToSize_not_fromZero :
    ∃ (a : Allocator) (d : Deque Nat), d.WellFormed ∧
      d = ⟨#[none, some 2, some 3, some 4], 1, 0⟩ ∧ d.tryTrimToSize a = (.ok (), d) ∧
      d.isWrapped = true ∧
      ¬∀ d', d.tryTrimToSize a = (.ok (), d') →
        d'.head = 0 ∧ d'.tail = d'.length ∧ d'.isWrapped = false := by
  refine ⟨.bounded 8 100, _, isWellFormed_iff.1 (by decide), rfl, rfl, rfl, ?_⟩
  intro laid
  obtain ⟨head, -, -⟩ := laid _ rfl
  contradiction

end RingDeque.Deque
