import RingDeque.Deque.Build
import RingDeque.Proofs.Positional

/-!
# What adding many elements does

An insertion of many elements succeeds exactly when there is room for all of them, and otherwise
changes nothing. The same holds when the source is cut short, because it is read to its end first.
Elements that are added one by one stay in the deque when a later one finds no room.
-/

namespace RingDeque.Deque

variable {α : Type u} {a : Allocator} {d : Deque α} {xs ys : List α} {index : Nat}

/-- What becomes of the place of a deque when so many elements are inserted at `index`. -/
inductive MadeRoom (index count : Nat) (d d' : Deque α) : Prop where
  /-- All elements went to a larger buffer. -/
  | replaced (beyond : d.slotCount ≤ d.length + count) (larger : d.slotCount < d'.slotCount)
      (head : d'.head = 0)
  /-- The elements in front of the new ones moved. -/
  | front (fits : d.length + count < d.slotCount) (fewer : index < d.length - index)
      (size : d'.slotCount = d.slotCount)
      (head : d'.head = Circle.backward d.head count d.slotCount)
  /-- The elements behind the new ones moved. -/
  | back (fits : d.length + count < d.slotCount) (fewer : ¬index < d.length - index)
      (size : d'.slotCount = d.slotCount) (head : d'.head = d.head)

/-- Nothing is moved for no elements. -/
theorem Holds.madeRoom_zero (h : d.Holds xs) (index : Nat) : MadeRoom index 0 d d := by
  have fits : d.length + 0 < d.slotCount := by
    rw [h.length_eq]
    exact h.length_lt
  by_cases fewer : index < d.length - index
  · exact .front fits fewer rfl rfl
  · exact .back fits fewer rfl rfl

/-- An insertion that there is room for, and which elements it moves. -/
theorem Holds.insertRange_madeRoom (h : d.Holds xs) (ys : List α) (hi : index ≤ xs.length)
    (hr : d.Room a (xs.length + ys.length)) :
    ∃ d', d.insertRange a index ys = (.ok (!ys.isEmpty), d') ∧
      d'.Holds (xs.take index ++ ys ++ xs.drop index) ∧ MadeRoom index ys.length d d' := by
  have length := h.length_lt
  have count := h.length_eq
  cases ys with
  | nil => exact ⟨d, rfl, by simpa using h, h.madeRoom_zero index⟩
  | cons y ys =>
      rw [Deque.insertRange_eq, if_neg (by simp)]
      by_cases larger : d.slotCount ≤ d.length + (y :: ys).length
      · rw [count] at larger
        obtain ⟨size, hsize, hg⟩ := (room_iff_of_le larger).1 hr
        have enough := (le_of_grownSlotCount hsize).1
        obtain ⟨d', hd', holds, head, size'⟩ := h.relayout_of_granted index (y :: ys) hg (by omega)
        rw [← count] at hsize larger
        rw [if_pos larger, hsize]
        dsimp only
        rw [hd']
        exact ⟨d', rfl, holds, .replaced larger (by omega) head⟩
      · rw [if_neg larger]
        have fits := Nat.lt_of_not_le larger
        rw [count] at larger
        by_cases fewer : index < d.length - index
        · rw [if_pos fewer]
          exact ⟨_, rfl, h.insert_front (y :: ys) hi (by omega), .front fits fewer
            ((Slots.size_fill ..).trans (Slots.size_shiftFrontward ..)) rfl⟩
        · rw [if_neg fewer]
          have moved := h.insert_back (y :: ys) hi (by omega)
          rw [← count] at moved
          exact ⟨_, rfl, moved, .back fits fewer
            ((Slots.size_fill ..).trans (Slots.size_shiftBackward ..)) rfl⟩

/-- An index beyond the length is not asked for here; the callers refuse it. -/
theorem Holds.insertRange (h : d.Holds xs) (ys : List α) (hi : index ≤ xs.length)
    (hr : d.Room a (xs.length + ys.length)) :
    ∃ d', d.insertRange a index ys = (.ok (!ys.isEmpty), d') ∧
      d'.Holds (xs.take index ++ ys ++ xs.drop index) := by
  obtain ⟨d', inserted, holds, -⟩ := h.insertRange_madeRoom ys hi hr
  exact ⟨d', inserted, holds⟩

theorem Holds.insertRange_refused (h : d.Holds xs) (index : Nat)
    (hr : ¬d.Room a (xs.length + ys.length)) :
    ∃ e, NoRoom e ∧ d.insertRange a index ys = (.error e, d) := by
  have length := h.length_lt
  have larger : d.slotCount ≤ xs.length + ys.length :=
    Nat.le_of_not_lt fun fits => hr (.inl fits)
  rw [Deque.insertRange_eq]
  simp only [h.length_eq]
  rw [if_neg (by omega), if_pos larger]
  cases answer : d.grownSlotCount a (xs.length + ys.length + 1 - d.slotCount) with
  | error e => exact ⟨e, noRoom_of_grownSlotCount answer, rfl⟩
  | ok size =>
      have refused := refused_of_not_room larger hr size answer
      exact ⟨_, ⟨size, rfl⟩, by simp only [relayout_of_refused refused]⟩

/-- Elements that are added one by one: all of them, or those before the first that finds no
room. -/
theorem Holds.pushAll (h : d.Holds xs) (ys : List α) :
    (∃ d', d.pushAll a ys = (.ok (), [], d') ∧ d'.Holds (xs ++ ys)) ∨
      ∃ e taken y rest d', NoRoom e ∧ ys = taken ++ y :: rest ∧
        d.pushAll a ys = (.error e, rest, d') ∧ d'.Holds (xs ++ taken) ∧
        d'.tryPushBack a y = (.error e, d') := by
  induction ys generalizing d xs with
  | nil => exact .inl ⟨d, rfl, by simpa using h⟩
  | cons y ys ih =>
      rw [Deque.pushAll_cons]
      by_cases hr : d.Room a (xs.length + 1)
      · obtain ⟨d₁, hd₁, holds₁⟩ := h.tryPushBack (x := y) hr
        rw [hd₁]
        rcases ih holds₁ with ⟨d', hd', holds⟩ | ⟨e, taken, z, rest, d', he, rfl, hd', holds, full⟩
        · exact .inl ⟨d', hd', by simpa using holds⟩
        · exact .inr ⟨e, y :: taken, z, rest, d', he, rfl, hd', by simpa using holds, full⟩
      · obtain ⟨e, he, hd₁⟩ := h.tryPushBack_refused (x := y) hr
        rw [hd₁]
        exact .inr ⟨e, [], y, ys, d, he, rfl, rfl, by simpa using h, hd₁⟩

/-- Whatever the source claims and delivers, what was taken from it is a beginning of it. -/
theorem Holds.extend (h : d.Holds xs) (claimed : Nat) (source : Trace α) :
    ∃ taken, taken <+: source.values ∧ (d.extend a claimed source).2.2.Holds (xs ++ taken) := by
  rw [Deque.extend_eq]
  by_cases hc : min (d.length + claimed) wordMax < wordMax ∧
      d.Room a (min (d.length + claimed) wordMax)
  · obtain ⟨d₁, hd₁, holds₁, -⟩ := h.ensureCapacity hc.1 hc.2
    rw [hd₁]
    rcases holds₁.pushAll (a := a) source.values with
      ⟨d', hd', holds⟩ | ⟨e, taken, y, rest, d', -, hv, hd', holds, -⟩
    · refine ⟨source.values, List.prefix_refl _, ?_⟩
      simp only [hd']
      split <;> exact holds
    · exact ⟨taken, ⟨y :: rest, hv.symm⟩, by simpa only [hd'] using holds⟩
  · obtain ⟨e, -, hd₁⟩ := ensureCapacity_of_not_room hc
    rw [hd₁]
    exact ⟨[], List.nil_prefix, by simpa using h⟩

/-- A new deque is empty, and has a free slot even if no room was asked for. -/
theorem holds_withCapacity (a : Allocator) (capacity : Nat) :
    (withCapacity a capacity : Deque α).Holds [] := by
  have size : (Slots.empty (min (capacity + 1) a.maxSlots) : Slots α).size =
      min (capacity + 1) a.maxSlots := Slots.size_empty ..
  have some_slot : 0 < min (capacity + 1) a.maxSlots :=
    Nat.lt_min.2 ⟨Nat.succ_pos capacity, a.maxSlots_pos⟩
  refine holds_mk size some_slot some_slot (Circle.forward_zero some_slot).symm ?_
  intro k hk
  rw [Slots.view_zero (by omega), Slots.at?_empty]
  rfl

end RingDeque.Deque
