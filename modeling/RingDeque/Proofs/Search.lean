import RingDeque.Deque.Search
import RingDeque.Proofs.Positional

/-!
# What a search finds

A search walks over the slots of the elements, from the front or from the back, around the end of
the buffer if they wrap. Its result is a slot, from which the index is counted and at which a
removal takes the element out. `hits` is what the walk asks at the slot with a given index, so both
walks are described by indices alone, and nothing has to be known about the equality of the
elements.
-/

namespace RingDeque

variable {α : Type u}

namespace Deque

variable {d : Deque α} {xs : List α} {k : Nat}

theorem Holds.next_position (h : d.Holds xs) (hk : k < d.slotCount) :
    Circle.next (d.position k) d.slotCount = d.position (k + 1) :=
  Circle.next_forward h.head_lt hk

theorem Holds.prev_position (h : d.Holds xs) (hk : k < d.slotCount) :
    Circle.prev (d.position (k + 1)) d.slotCount = d.position k :=
  Circle.prev_forward_succ h.head_lt hk

/-- What a removal does that was told to take out the element at an index, or that there is none to
take out. -/
def Removes (d : Deque α) (index? : Option Nat) (outcome : Bool × Deque α) : Prop :=
  match index? with
  | none => outcome = (false, d)
  | some i => outcome.1 = true ∧ outcome.2.WellFormed ∧ outcome.2.toList = d.toList.eraseIdx i

end Deque

variable [BEq α]

/-- Whether there is an element at index `i` and it equals `x`. -/
def hits (x : α) (xs : List α) (i : Nat) : Bool :=
  xs[i]?.any (· == x)

/-- At index `i` stands an element that equals `x`, and at no smaller index. -/
structure FirstEqual (x : α) (xs : List α) (i : Nat) : Prop where
  equal : hits x xs i = true
  least : ∀ j < i, hits x xs j = false

/-- At index `i` stands an element that equals `x`, and at no greater index. -/
structure LastEqual (x : α) (xs : List α) (i : Nat) : Prop where
  equal : hits x xs i = true
  greatest : ∀ j > i, hits x xs j = false

/-- No element equals `x`. -/
def NoneEqual (x : α) (xs : List α) : Prop :=
  ∀ y ∈ xs, (y == x) = false

variable {x : α} {xs : List α} {i j : Nat}

theorem hits_of_length_le (h : xs.length ≤ i) : hits x xs i = false := by
  rw [hits, List.getElem?_eq_none h]
  rfl

theorem lt_length_of_hits (h : hits x xs i = true) : i < xs.length := by
  apply Nat.lt_of_not_le
  intro beyond
  rw [hits_of_length_le beyond] at h
  contradiction

theorem noneEqual_iff : NoneEqual x xs ↔ ∀ i, hits x xs i = false := by
  constructor
  · intro none i
    cases place : xs[i]? with
    | none => simp [hits, place]
    | some y => simpa [hits, place] using none y (List.mem_of_getElem? place)
  · intro none y mem
    obtain ⟨i, place⟩ := List.mem_iff_getElem?.1 mem
    simpa [hits, place] using none i

theorem FirstEqual.unique (h : FirstEqual x xs i) (h' : FirstEqual x xs j) : i = j := by
  obtain before | rfl | behind := Nat.lt_trichotomy i j
  · exact absurd h.equal (by simp [h'.least i before])
  · rfl
  · exact absurd h'.equal (by simp [h.least j behind])

theorem LastEqual.unique (h : LastEqual x xs i) (h' : LastEqual x xs j) : i = j := by
  obtain before | rfl | behind := Nat.lt_trichotomy i j
  · exact absurd h'.equal (by simp [h.greatest j before])
  · rfl
  · exact absurd h.equal (by simp [h'.greatest i behind])

namespace Deque

variable {d : Deque α} {k count : Nat}

theorem Holds.holds_position (h : d.Holds xs) (hk : k < d.slotCount) :
    d.holds x (d.position k) = hits x xs k := by
  rw [Deque.holds, h.slot_position hk, hits]
  cases xs[k]? <;> rfl

/-- The walk from index `k` to the back stops at the first index that is hit. -/
theorem Holds.findFrom? (h : d.Holds xs) (x : α) (bound : k + count = xs.length) :
    (d.findFrom? x (d.position k) count = none ∧ ∀ j ≥ k, hits x xs j = false) ∨
      ∃ i, d.findFrom? x (d.position k) count = some (d.position i) ∧ hits x xs i = true ∧
        ∀ j ≥ k, j < i → hits x xs j = false := by
  have length := h.length_lt
  induction count generalizing k with
  | zero =>
      refine .inl ⟨rfl, ?_⟩
      intro j hj
      exact hits_of_length_le (by omega)
  | succ count ih =>
      have inside : k < d.slotCount := by omega
      rw [Deque.findFrom?_succ, h.holds_position inside, h.next_position inside]
      cases here : hits x xs k with
      | true =>
          refine .inr ⟨k, if_pos rfl, here, ?_⟩
          intro j hj before
          omega
      | false =>
          rw [if_neg Bool.false_ne_true]
          have from_k {j : Nat} (hj : j ≥ k) (rest : j ≥ k + 1 → hits x xs j = false) :
              hits x xs j = false := by
            obtain same | behind := Nat.eq_or_lt_of_le hj
            · exact same ▸ here
            · exact rest behind
          obtain ⟨none, free⟩ | ⟨i, found, equal, free⟩ := ih (k := k + 1) (by omega)
          · exact .inl ⟨none, fun j hj => from_k hj (free j)⟩
          · exact .inr ⟨i, found, equal, fun j hj before => from_k hj fun behind =>
              free j behind before⟩

/-- The walk over the first `count` elements, from the last of them to the front, stops at the last
index that is hit. -/
theorem Holds.findBefore? (h : d.Holds xs) (x : α) (bound : count ≤ xs.length) :
    (d.findBefore? x (d.position count) count = none ∧ ∀ j < count, hits x xs j = false) ∨
      ∃ i, d.findBefore? x (d.position count) count = some (d.position i) ∧ hits x xs i = true ∧
        ∀ j < count, j > i → hits x xs j = false := by
  have length := h.length_lt
  induction count with
  | zero => exact .inl ⟨rfl, fun j hj => absurd hj (Nat.not_lt_zero j)⟩
  | succ count ih =>
      have inside : count < d.slotCount := by omega
      simp only [Deque.findBefore?_succ, h.prev_position inside, h.holds_position inside]
      cases here : hits x xs count with
      | true =>
          refine .inr ⟨count, if_pos rfl, here, ?_⟩
          intro j hj behind
          omega
      | false =>
          rw [if_neg Bool.false_ne_true]
          have up_to {j : Nat} (hj : j < count + 1) (rest : j < count → hits x xs j = false) :
              hits x xs j = false := by
            obtain same | before := Nat.eq_or_lt_of_le (Nat.le_of_lt_succ hj)
            · exact same ▸ here
            · exact rest before
          obtain ⟨none, free⟩ | ⟨i, found, equal, free⟩ := ih (by omega)
          · exact .inl ⟨none, fun j hj => up_to hj (free j)⟩
          · exact .inr ⟨i, found, equal, fun j hj behind => up_to hj fun before =>
              free j before behind⟩

theorem Holds.findSlot? (h : d.Holds xs) (x : α) :
    (d.findSlot? x = none ∧ NoneEqual x xs) ∨
      ∃ i, d.findSlot? x = some (d.position i) ∧ FirstEqual x xs i := by
  have start : d.position 0 = d.head := Circle.forward_zero h.head_lt
  rw [Deque.findSlot?_eq, ← start, h.length_eq]
  obtain ⟨none, free⟩ | ⟨i, found, equal, free⟩ := h.findFrom? x (Nat.zero_add xs.length)
  · exact .inl ⟨none, noneEqual_iff.2 fun j => free j (Nat.zero_le j)⟩
  · exact .inr ⟨i, found, equal, fun j => free j (Nat.zero_le j)⟩

theorem Holds.findLastSlot? (h : d.Holds xs) (x : α) :
    (d.findLastSlot? x = none ∧ NoneEqual x xs) ∨
      ∃ i, d.findLastSlot? x = some (d.position i) ∧ LastEqual x xs i := by
  have within {j : Nat} (rest : j < xs.length → hits x xs j = false) : hits x xs j = false := by
    obtain inside | beyond := Nat.lt_or_ge j xs.length
    · exact rest inside
    · exact hits_of_length_le beyond
  rw [Deque.findLastSlot?_eq, ← h.position_length, h.length_eq]
  obtain ⟨none, free⟩ | ⟨i, found, equal, free⟩ := h.findBefore? x (Nat.le_refl xs.length)
  · exact .inl ⟨none, noneEqual_iff.2 fun j => within (free j)⟩
  · exact .inr ⟨i, found, equal, fun j behind => within fun inside => free j inside behind⟩

/-- The index is counted from the slot that the search found, and a removal at that slot takes out
the element. -/
theorem Holds.found (h : d.Holds xs) (hit : hits x xs i = true) :
    Circle.steps d.head (d.position i) d.slotCount = i ∧
      d.Removes (some i) (d.removeFound (some (d.position i))) := by
  have inside := lt_length_of_hits hit
  obtain ⟨closed, d', removed, holds, -⟩ := h.delete inside
  refine ⟨(h.steps_position (Nat.le_of_lt inside)).1, ?_⟩
  rw [removeFound_some, removed]
  refine ⟨rfl, holds.wellFormed, ?_⟩
  rw [holds.toList_eq, h.toList_eq]

theorem Holds.indexOf? (h : d.Holds xs) (x : α) :
    d.Removes (d.indexOf? x) (d.removeFirstOccurrence x) ∧
      ((d.indexOf? x = none ∧ NoneEqual x xs) ∨
        ∃ i, d.indexOf? x = some i ∧ FirstEqual x xs i) := by
  rw [Deque.indexOf?_eq, removeFirstOccurrence_eq]
  obtain ⟨none, free⟩ | ⟨i, found, first⟩ := h.findSlot? x
  · rw [none]
    exact ⟨rfl, .inl ⟨rfl, free⟩⟩
  · obtain ⟨index, removes⟩ := h.found first.equal
    rw [found, Option.map_some, index]
    exact ⟨removes, .inr ⟨i, rfl, first⟩⟩

theorem Holds.lastIndexOf? (h : d.Holds xs) (x : α) :
    d.Removes (d.lastIndexOf? x) (d.removeLastOccurrence x) ∧
      ((d.lastIndexOf? x = none ∧ NoneEqual x xs) ∨
        ∃ i, d.lastIndexOf? x = some i ∧ LastEqual x xs i) := by
  rw [Deque.lastIndexOf?_eq, removeLastOccurrence_eq]
  obtain ⟨none, free⟩ | ⟨i, found, last⟩ := h.findLastSlot? x
  · rw [none]
    exact ⟨rfl, .inl ⟨rfl, free⟩⟩
  · obtain ⟨index, removes⟩ := h.found last.equal
    rw [found, Option.map_some, index]
    exact ⟨removes, .inr ⟨i, rfl, last⟩⟩

/-- A search that ends with the one index of some kind, or with none if no element equals `x`. -/
theorem ends_iff {answer : Option Nat} {IsIndex : Nat → Prop}
    (unique : ∀ {i j}, IsIndex i → IsIndex j → i = j)
    (equal : ∀ {i}, IsIndex i → hits x xs i = true)
    (ends : (answer = none ∧ NoneEqual x xs) ∨ ∃ i, answer = some i ∧ IsIndex i) :
    (∀ i, answer = some i ↔ IsIndex i) ∧ (answer = none ↔ NoneEqual x xs) := by
  obtain ⟨rfl, free⟩ | ⟨i, rfl, index⟩ := ends
  · refine ⟨fun i => iff_of_false nofun fun index => ?_, iff_of_true rfl free⟩
    have hit := equal index
    rw [noneEqual_iff.1 free i] at hit
    contradiction
  · refine ⟨fun j => ⟨?_, fun other => congrArg some (unique index other)⟩, ?_⟩
    · rintro ⟨⟩
      exact index
    · refine iff_of_false nofun fun free => ?_
      have hit := equal index
      rw [noneEqual_iff.1 free i] at hit
      contradiction

/-- Whatever the equality of the elements is and wherever they stand, the search from the front
finds the least index of an element that equals `x` and the search from the back the greatest. They
find none exactly if no element equals `x`. A removal by value, under either name, takes out the
element that the search finds and keeps the others in order; if there is none, it leaves the deque
as it is. -/
theorem WellFormed.searches (h : d.WellFormed) (x : α) :
    (∀ i, d.indexOf? x = some i ↔ FirstEqual x d.toList i) ∧
    (d.indexOf? x = none ↔ NoneEqual x d.toList) ∧
    (∀ i, d.lastIndexOf? x = some i ↔ LastEqual x d.toList i) ∧
    (d.lastIndexOf? x = none ↔ NoneEqual x d.toList) ∧
    (d.contains x = true ↔ d.indexOf? x ≠ none) ∧
    d.Removes (d.indexOf? x) (d.removeFirstOccurrence x) ∧
    d.Removes (d.indexOf? x) (d.remove x) ∧
    d.Removes (d.lastIndexOf? x) (d.removeLastOccurrence x) := by
  obtain ⟨removesFirst, endsFirst⟩ := h.holds.indexOf? x
  obtain ⟨removesLast, endsLast⟩ := h.holds.lastIndexOf? x
  obtain ⟨first, noFirst⟩ := ends_iff FirstEqual.unique FirstEqual.equal endsFirst
  obtain ⟨last, noLast⟩ := ends_iff LastEqual.unique LastEqual.equal endsLast
  refine ⟨first, noFirst, last, noLast, ?_, removesFirst, removesFirst, removesLast⟩
  rw [contains, Deque.indexOf?_eq]
  cases d.findSlot? x <;> simp

/-- Duplicates on both sides of the end of the buffer, and an equality that compares remainders on
one side only, so that nothing equals `7` although `7` would be equal to `1`. -/
theorem WellFormed.searches_wrapped :
    let _ : BEq Nat := ⟨fun y x => y % 3 == x⟩
    let d : Deque Nat := ⟨#[some 4, some 2, some 7, none, none, some 0, some 1, some 5], 5, 3⟩
    let fewer : Deque Nat := ⟨#[some 4, some 2, some 7, none, none, none, some 0, some 5], 6, 3⟩
    d.WellFormed ∧ FirstEqual 1 d.toList 1 ∧ LastEqual 1 d.toList 5 ∧
      d.indexOf? 1 = some 1 ∧ d.lastIndexOf? 1 = some 5 ∧ d.indexOf? 7 = none ∧
      NoneEqual 7 d.toList ∧ d.removeFirstOccurrence 1 = (true, fewer) ∧
      fewer.toList = d.toList.eraseIdx 1 := by
  intro _ d fewer
  have ordered : d.WellFormed := isWellFormed_iff.1 (by decide)
  obtain ⟨first, -, last, -, -, removes, -⟩ := searches ordered 1
  obtain ⟨-, none, -⟩ := searches ordered 7
  have index : d.indexOf? 1 = some 1 := by decide
  have lastIndex : d.lastIndexOf? 1 = some 5 := by decide
  have absent : d.indexOf? 7 = Option.none := by decide
  have removed : d.removeFirstOccurrence 1 = (true, fewer) := by decide
  rw [index, removed] at removes
  exact ⟨ordered, (first 1).1 index, (last 5).1 lastIndex, index, lastIndex, absent, none.1 absent,
    removed, removes.2.2⟩

end Deque

end RingDeque
