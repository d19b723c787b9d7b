import RingDeque.Proofs.Ends

/-!
# Growth from every state that calls for it

A reservation grows a deque at rest. An addition at an end grows one that it has just filled to the
last slot, where `head = tail` although no slot is free. `contents` is what both have in common:
what stands in the slots, once around from `head`. It is the list of elements of a deque at rest,
and it has as many elements as there are slots in a full one. Growth leaves a deque at rest with
just these elements.
-/

namespace RingDeque.Deque

variable {α : Type u} {a : Allocator} {d d' : Deque α} {xs : List α} {x : α} {needed : Nat}

/-- What stands in the slots, once around from `head`. -/
def contents (d : Deque α) : List α :=
  (List.range d.slotCount).filterMap fun i => d.slot (d.position i)

/-- Every slot is occupied, and `tail` has come round to `head`. -/
structure Full (d : Deque α) : Prop where
  head_lt : d.head < d.slotCount
  tail_eq : d.tail = d.head
  isSome_slot : ∀ p < d.slotCount, (d.slot p).isSome

/-- The elements of `d` in a buffer of at least `needed` more slots. -/
structure Enlarged (a : Allocator) (needed : Nat) (d d' : Deque α) : Prop where
  wellFormed : d'.WellFormed
  toList_eq : d'.toList = d.contents
  tail_eq : d'.tail = d.tail
  enough : d.slotCount + needed ≤ d'.slotCount
  bounded : d'.slotCount ≤ a.maxSlots
  /-- Elements that do not reach up to the end of the old buffer stay. -/
  stays : d.isWrapped = false → ¬d.Full → d'.head = d.head
  moves : d.isWrapped = true ∨ d.Full → d'.head = d.head + (d'.slotCount - d.slotCount)

/-- What comes of an addition whose element took the last free slot of `d`, which made `full`. The
outcome is that of the growth of `full`: the deque has all elements in a larger buffer, or it is
again as it was. -/
structure LastSlot (a : Allocator) (d full : Deque α) (elements : List α)
    (outcome : Except Error Unit × Deque α) : Prop where
  isFull : full.Full
  contents_eq : full.contents = elements
  answer_eq : outcome.1 = (full.grow a 1).1
  enlarged : outcome.1 = .ok () → Enlarged a 1 full outcome.2 ∧ outcome.2.toList = elements
  restored : outcome.1 ≠ .ok () → (∃ e, NoRoom e ∧ outcome.1 = .error e) ∧ outcome.2 = d

/-- Behind the elements no slot is occupied, so going on around the circle finds no more. -/
theorem Stores.contents_eq (h : d.Stores xs) : d.contents = xs := by
  have present : ∀ i < xs.length, (d.slot (d.position i)).isSome := by
    intro i hi
    rw [position, h.slot_forward (Nat.lt_of_lt_of_le hi h.length_le)]
    simpa using hi
  have free : (List.range (d.slotCount - xs.length)).filterMap
      (fun i => d.slot (d.position (xs.length + i))) = [] := by
    rw [List.filterMap_eq_nil_iff]
    intro i hi
    rw [List.mem_range] at hi
    rw [position, h.slot_forward (by omega), List.getElem?_eq_none (by omega)]
  rw [contents, ← Nat.add_sub_cancel' h.length_le, List.range_add, List.filterMap_append,
    List.filterMap_map]
  simp only [Function.comp_def, free, List.append_nil]
  apply List.ext_getElem?
  intro k
  rw [getElem?_filterMap_range present]
  split
  · next hk => exact h.slot_forward (Nat.lt_of_lt_of_le hk h.length_le)
  · next hk => exact (List.getElem?_eq_none (Nat.le_of_not_lt hk)).symm

theorem WellFormed.contents_eq (h : d.WellFormed) : d.contents = d.toList :=
  h.holds.toStores.contents_eq

theorem Full.isSome_position (h : d.Full) {i : Nat} (hi : i < d.slotCount) :
    (d.slot (d.position i)).isSome :=
  h.isSome_slot _ (Circle.forward_lt h.head_lt (Nat.le_of_lt hi))

theorem Full.length_contents (h : d.Full) : d.contents.length = d.slotCount :=
  length_filterMap_range fun _ hi => h.isSome_position hi

theorem Full.stores (h : d.Full) : d.Stores d.contents where
  head_lt := h.head_lt
  length_le := Nat.le_of_eq h.length_contents
  tail_eq := by rw [h.length_contents, Circle.forward_size, h.tail_eq]
  view_eq k hk := by
    rw [contents, getElem?_filterMap_range fun _ hi => h.isSome_position hi, if_pos hk]
    rfl

/-- A buffer with an element for every slot is full. -/
theorem Stores.full (h : d.Stores xs) (hl : xs.length = d.slotCount) : d.Full where
  head_lt := h.head_lt
  tail_eq := by rw [h.tail_eq, hl, Circle.forward_size]
  isSome_slot p hp := by
    rw [h.slot_eq hp]
    simpa [hl] using Circle.steps_lt h.head_lt hp

theorem WellFormed.not_full (h : d.WellFormed) : ¬d.Full := by
  intro full
  have occupied := full.isSome_slot d.tail h.tail_lt
  rw [h.holds.slot_tail] at occupied
  contradiction

/-- Growth that succeeds was granted a number of slots. -/
theorem granted_of_grow (grew : d.grow a needed = (.ok (), d')) :
    ∃ count, d.grownSlotCount a needed = .ok count ∧ a.grants count = true := by
  cases answer : d.grownSlotCount a needed with
  | error e =>
      rw [grow_of_error answer] at grew
      cases grew
  | ok count =>
      cases granted : a.grants count with
      | true => exact ⟨count, rfl, granted⟩
      | false =>
          rw [grow_of_not_granted answer granted] at grew
          cases grew

/-- In both states the elements reach up to the end of the buffer when `head` has to move. -/
theorem Stores.enlarged (h : d.Stores xs) (hn : 1 ≤ needed)
    (reaches : d.slotCount ≤ d.head + xs.length ↔ d.isWrapped = true ∨ d.Full)
    (grew : d.grow a needed = (.ok (), d')) : Enlarged a needed d d' := by
  obtain ⟨count, answer, granted⟩ := granted_of_grow grew
  obtain ⟨e, grew', holds, size, tail, head⟩ := h.grow_of_granted hn answer granted
  obtain rfl : d' = e := congrArg Prod.snd (grew.symm.trans grew')
  obtain ⟨enough, bounded⟩ := le_of_grownSlotCount answer
  refine ⟨holds.wellFormed, holds.toList_eq.trans h.contents_eq.symm, tail, size ▸ enough,
    size ▸ bounded, ?_, ?_⟩
  · intro straight free
    rw [head, if_neg fun up => ?_]
    obtain wrapped | full := reaches.1 up
    · rw [straight] at wrapped
      contradiction
    · exact free full
  · intro around
    rw [head, if_pos (reaches.2 around), size]

theorem WellFormed.enlarged (h : d.WellFormed) (hn : 1 ≤ needed)
    (grew : d.grow a needed = (.ok (), d')) : Enlarged a needed d d' := by
  refine h.holds.toStores.enlarged hn ?_ grew
  rw [← h.holds.isWrapped_iff, or_iff_left h.not_full]

theorem Full.enlarged (h : d.Full) (hn : 1 ≤ needed)
    (grew : d.grow a needed = (.ok (), d')) : Enlarged a needed d d' := by
  refine h.stores.enlarged hn (iff_of_true ?_ (.inr h)) grew
  rw [h.length_contents]
  exact Nat.le_add_left ..

theorem grow_eq_ok_iff :
    (d.grow a needed).1 = .ok () ↔
      ∃ count, d.grownSlotCount a needed = .ok count ∧ a.grants count = true := by
  constructor
  · intro grew
    exact granted_of_grow (Prod.ext grew rfl)
  · rintro ⟨count, answer, granted⟩
    rw [grow_of_granted answer granted]

/-- A full deque that cannot grow has no room, and neither had the one whose last slot was
filled. -/
theorem not_room_of_grow {full : Deque α} {e : Error} (last : xs.length + 1 = d.slotCount)
    (size : full.slotCount = d.slotCount) (failed : full.grow a 1 = (.error e, full)) :
    ¬d.Room a (xs.length + 1) := by
  rw [room_iff_of_full last size, ← grow_eq_ok_iff, failed]
  nofun

/-- An addition that takes the last free slot and grows, or undoes what it has done. -/
theorem Full.lastSlot {full : Deque α} {elements : List α} {outcome : Except Error Unit × Deque α}
    (h : full.Full) (contents : full.contents = elements)
    (grows : ∀ d', full.grow a 1 = (.ok (), d') → outcome = (.ok (), d'))
    (undoes : ∀ e, full.grow a 1 = (.error e, full) → outcome = (.error e, d)) :
    LastSlot a d full elements outcome := by
  by_cases served : (full.grow a 1).1 = .ok ()
  · have grew : full.grow a 1 = (.ok (), (full.grow a 1).2) := Prod.ext served rfl
    have enlarged := h.enlarged (Nat.le_refl 1) grew
    rw [grows _ grew]
    exact ⟨h, contents, served.symm, fun _ => ⟨enlarged, enlarged.toList_eq.trans contents⟩,
      fun failed => absurd rfl failed⟩
  · have refused : ∀ count, full.grownSlotCount a 1 = .ok count → a.grants count = false := by
      intro count answer
      rw [← Bool.not_eq_true]
      exact fun granted => served (grow_eq_ok_iff.2 ⟨count, answer, granted⟩)
    obtain ⟨e, noRoom, failed⟩ := grow_of_refused refused
    rw [undoes e failed]
    exact ⟨h, contents, by rw [failed], nofun, fun _ => ⟨⟨e, noRoom, rfl⟩, rfl⟩⟩

theorem Holds.tryPushFront_last (h : d.Holds xs) (last : xs.length + 1 = d.slotCount) (x : α) :
    LastSlot a d (d.filledFront x) (x :: xs) (d.tryPushFront a x) := by
  have stores := h.filledFront (x := x)
  have full : (d.filledFront x).Full := stores.full (by rw [slotCount_filledFront, ← last]; rfl)
  refine full.lastSlot stores.contents_eq ?_ ?_
  · intro d' grew
    rw [tryPushFront_eq, if_pos full.tail_eq.symm, grew]
  · intro e failed
    obtain ⟨e', -, refused⟩ :=
      h.tryPushFront_refused (x := x) (not_room_of_grow last (slotCount_filledFront x d) failed)
    have answer : (d.tryPushFront a x).1 = .error e := by
      rw [tryPushFront_eq, if_pos full.tail_eq.symm, failed]
    rw [refused] at answer ⊢
    exact Prod.ext answer rfl

theorem Holds.tryPushBack_last (h : d.Holds xs) (last : xs.length + 1 = d.slotCount) (x : α) :
    LastSlot a d (d.filledBack x) (xs ++ [x]) (d.tryPushBack a x) := by
  have stores := h.filledBack (x := x)
  have full : (d.filledBack x).Full :=
    stores.full (by rw [slotCount_filledBack, List.length_append, ← last]; rfl)
  refine full.lastSlot stores.contents_eq ?_ ?_
  · intro d' grew
    rw [tryPushBack_eq, if_pos full.tail_eq.symm, grew]
  · intro e failed
    obtain ⟨e', -, refused⟩ :=
      h.tryPushBack_refused (x := x) (not_room_of_grow last (slotCount_filledBack x d) failed)
    have answer : (d.tryPushBack a x).1 = .error e := by
      rw [tryPushBack_eq, if_pos full.tail_eq.symm, failed]
    rw [refused] at answer ⊢
    exact Prod.ext answer rfl

/-- Growth of a deque at rest, or of one that was just filled to the last slot, keeps its elements
in their order and its `tail`, whatever its rotation. Only elements that reach up to the end of the
old buffer move, to the end of the new one. So an addition at either end that takes the last free
slot leads to all elements and the new one in their order, or changes nothing. -/
theorem grow_enlarges (h : d.WellFormed ∨ d.Full) (hn : 1 ≤ needed) :
    ((d.grow a needed).1 = .ok () ↔
      ∃ count, d.grownSlotCount a needed = .ok count ∧ a.grants count = true) ∧
    (∀ d', d.grow a needed = (.ok (), d') → Enlarged a needed d d') ∧
    (d.WellFormed → d.contents = d.toList) ∧
    (d.Full → d.contents.length = d.slotCount) ∧
    (d.WellFormed → d.length = d.capacity → ∀ x,
      LastSlot a d (d.filledFront x) (x :: d.toList) (d.tryPushFront a x) ∧
      LastSlot a d (d.filledBack x) (d.toList ++ [x]) (d.tryPushBack a x)) := by
  refine ⟨grow_eq_ok_iff, fun d' grew => ?_, fun rest => rest.contents_eq,
    fun full => full.length_contents, fun rest filled x => ?_⟩
  · obtain rest | full := h
    · exact rest.enlarged hn grew
    · exact full.enlarged hn grew
  · have last : d.toList.length + 1 = d.slotCount := by
      rw [← rest.holds.length_eq, filled, capacity, Nat.sub_add_cancel rest.holds.slotCount_pos]
    exact ⟨rest.holds.tryPushFront_last last x, rest.holds.tryPushBack_last last x⟩

/-- The two elements at the end of a full buffer slide by six slots, further than their number.
Where only one more slot is allowed, three elements slide by one slot, onto one another. -/
theorem grow_enlarges_rotated :
    let wide := Allocator.bounded 8 100
    let full : Deque Nat := ⟨#[some 3, some 4, some 1, some 2], 2, 2⟩
    let grown : Deque Nat :=
      ⟨#[some 3, some 4, none, none, none, none, none, none, some 1, some 2], 8, 2⟩
    let narrow : Allocator := ⟨5, fun _ => true, by decide, by decide⟩
    let d : Deque Nat := ⟨#[some 4, none, some 2, some 3], 2, 1⟩
    let pushed : Deque Nat := ⟨#[some 4, none, some 1, some 2, some 3], 2, 1⟩
    full.Full ∧ full.grow wide 1 = (.ok (), grown) ∧ Enlarged wide 1 full grown ∧
      d.WellFormed ∧ d.length = d.capacity ∧ d.tryPushFront narrow 1 = (.ok (), pushed) ∧
      LastSlot narrow d (d.filledFront 1) [1, 2, 3, 4] (d.tryPushFront narrow 1) := by
  intro wide full grown narrow d pushed
  have occupied : full.Full := ⟨by decide, rfl, by decide⟩
  have ordered : d.WellFormed := isWellFormed_iff.1 (by decide)
  have granted : (full.grow wide 1).1 = .ok () :=
    grow_eq_ok_iff.2 ⟨10, by rw [grownSlotCount_eq]; rfl, by decide⟩
  have grew : full.grow wide 1 = (.ok (), grown) := Prod.ext granted (by decide)
  have one_more : ((d.filledFront 1).grow narrow 1).1 = .ok () :=
    grow_eq_ok_iff.2 ⟨5, by rw [grownSlotCount_eq]; rfl, rfl⟩
  have last : LastSlot narrow d (d.filledFront 1) [1, 2, 3, 4] (d.tryPushFront narrow 1) :=
    ((grow_enlarges (.inl ordered) (Nat.le_refl 1)).2.2.2.2 ordered rfl 1).1
  have slid : d.tryPushFront narrow 1 = (.ok (), pushed) :=
    Prod.ext (last.answer_eq.trans one_more) (by decide)
  exact ⟨occupied, grew, (grow_enlarges (.inr occupied) (Nat.le_refl 1)).2.1 grown grew, ordered,
    rfl, slid, last⟩

end RingDeque.Deque
