import RingDeque.Deque.Search
import RingDeque.Proofs.Insertion
import RingDeque.Proofs.Removal
import RingDeque.Proofs.Sort

/-!
# What calls do to the number of slots

Calls that do not add elements keep the buffer, whatever else they do; only a trim may take a
smaller one. The others enlarge it only if the elements that it is to hold exceed the capacity.
Where they find that out differs: an addition at an end when the slot that it filled was the last
one, an insertion when it has counted the elements on both sides of its place, an insertion of many
by their number, a reservation by the number of slots. Since one slot always stays free, each of
these tests is off by one from the others. `Sized` is what all of them come to.
-/

namespace RingDeque

variable {σ : Type u} {α : Type v}

/-- The number of slots was raised from `before` to `after` by a growth that needed `asked` of
them. -/
structure Grown (a : Allocator) (before asked after : Nat) : Prop where
  larger : before < after
  enough : asked ≤ after
  bounded : after ≤ a.maxSlots
  generous : before + before / 2 ≤ after ∨ after = a.maxSlots

/-- Two growths with one allocator, the second of which needed more. -/
theorem Grown.trans {a : Allocator} {before middle after asked asked' : Nat}
    (h : Grown a before asked middle) (h' : Grown a middle asked' after) :
    Grown a before asked' after where
  larger := Nat.lt_trans h.larger h'.larger
  enough := h'.enough
  bounded := h'.bounded
  generous := by
    have further := h'.larger
    apply h.generous.imp
    · intro half
      omega
    · intro all
      have bound := h'.bounded
      omega

namespace Deque

variable {a : Allocator} {d d' : Deque α} {xs ys : List α} {x : α}
    {needed asked count index k : Nat}

/-- A buffer either more than doubles or grows by half, unless more is needed or less is allowed. -/
theorem grown_of_grownSlotCount (h : d.grownSlotCount a needed = .ok count) (hn : 0 < needed) :
    Grown a d.slotCount (d.slotCount + needed) count := by
  obtain ⟨enough, bounded⟩ := le_of_grownSlotCount h
  refine ⟨by omega, enough, bounded, ?_⟩
  have half : d.slotCount / 2 ≤ d.jump := by
    rw [jump_eq]
    split <;> omega
  rw [grownSlotCount_eq] at h
  split at h
  · injection h with h
    split at h <;> omega
  · contradiction

/-- The buffer of `d'` is as large as that of `d`, or larger because `asked` elements have no room
in that. -/
inductive Sized (a : Allocator) (asked : Nat) (d d' : Deque α) : Prop where
  | same (h : d'.slotCount = d.slotCount)
  | grown (beyond : d.capacity < asked) (h : Grown a d.slotCount (asked + 1) d'.slotCount)

theorem Sized.slotCount_le (h : Sized a asked d d') : d.slotCount ≤ d'.slotCount := by
  cases h with
  | same size => exact Nat.le_of_eq size.symm
  | grown beyond grown => exact Nat.le_of_lt grown.larger

theorem Sized.congr {e e' : Deque α} (h : Sized a asked d d') (size : e.slotCount = d.slotCount)
    (size' : e'.slotCount = d'.slotCount) : Sized a asked e e' := by
  cases h with
  | same same => exact .same (by rw [size', same, size])
  | grown beyond grown => exact .grown (by rwa [capacity, size]) (by rwa [size, size'])

/-- What counts is how many elements there are in the end. -/
theorem Sized.of_length (h : Sized a asked d d') (outcome : d' = d ∨ d'.length = asked) :
    Sized a d'.length d d' := by
  cases h with
  | same size => exact .same size
  | grown beyond grown =>
      obtain rfl | length := outcome
      · exact absurd grown.larger (Nat.lt_irrefl _)
      · rw [length]
        exact .grown beyond grown

/-- Room for `needed`, and then for `asked`, is room for both. -/
theorem Sized.trans {d₁ : Deque α} (h : Sized a needed d d₁) (h' : Sized a asked d₁ d')
    (reached : needed < d₁.slotCount) (reached' : asked < d'.slotCount) :
    Sized a (max needed asked) d d' := by
  have enough : max needed asked + 1 ≤ d'.slotCount := by
    have larger := h'.slotCount_le
    omega
  cases h with
  | same size =>
      cases h' with
      | same size' => exact .same (size'.trans size)
      | grown beyond grown =>
          rw [capacity, size] at beyond
          rw [size] at grown
          exact .grown (Nat.lt_of_lt_of_le beyond (Nat.le_max_right ..))
            { grown with enough := enough }
  | grown beyond grown =>
      have beyond := Nat.lt_of_lt_of_le beyond (Nat.le_max_left needed asked)
      cases h' with
      | same size' =>
          rw [← size'] at grown
          exact .grown beyond { grown with enough := enough }
      | grown _ grown' => exact .grown beyond { grown.trans grown' with enough := enough }

/-! ### Calls that keep the buffer -/

@[simp] theorem slotCount_popFront (d : Deque α) : d.popFront.2.slotCount = d.slotCount := by
  rw [popFront_eq]
  split
  · rfl
  · exact Slots.size_put ..

@[simp] theorem slotCount_popBack (d : Deque α) : d.popBack.2.slotCount = d.slotCount := by
  rw [popBack_eq]
  split
  · rfl
  · exact Slots.size_put ..

@[simp] theorem slotCount_replaceSlot (p : Nat) (x : α) (d : Deque α) :
    (d.replaceSlot p x).2.slotCount = d.slotCount :=
  (d.layout_replaceSlot p x).2.2

@[simp] theorem slotCount_clear (d : Deque α) : d.clear.slotCount = d.slotCount :=
  Slots.size_clear ..

@[simp] theorem slotCount_delete (p : Nat) (d : Deque α) :
    (d.delete p).2.slotCount = d.slotCount := by
  rw [delete_eq]
  split
  · rfl
  · dsimp only
    split
    · exact (Slots.size_shiftBackward ..).trans (Slots.size_put ..)
    · exact (Slots.size_shiftFrontward ..).trans (Slots.size_put ..)

@[simp] theorem slotCount_removeFirst (d : Deque α) : d.removeFirst.2.slotCount = d.slotCount := by
  rw [← d.slotCount_popFront, removeFirst]
  split <;> simp_all

@[simp] theorem slotCount_removeLast (d : Deque α) : d.removeLast.2.slotCount = d.slotCount := by
  rw [← d.slotCount_popBack, removeLast]
  split <;> simp_all

@[simp] theorem slotCount_set (index : Nat) (x : α) (d : Deque α) :
    (d.set index x).2.slotCount = d.slotCount := by
  rw [← d.slotCount_replaceSlot (d.position index) x, set_eq]
  split
  · split <;> simp_all
  · rw [slotCount_replaceSlot]

@[simp] theorem slotCount_replace? (index : Nat) (x : α) (d : Deque α) :
    (d.replace? index x).2.slotCount = d.slotCount := by
  rw [replace?]
  split
  · exact slotCount_replaceSlot ..
  · rfl

@[simp] theorem slotCount_replaceOrFault (index : Nat) (x : α) (d : Deque α) :
    (d.replaceOrFault index x).2.slotCount = d.slotCount := by
  rw [← d.slotCount_replace? index x, replaceOrFault]
  split <;> simp_all

@[simp] theorem slotCount_removeAt (index : Nat) (d : Deque α) :
    (d.removeAt index).2.slotCount = d.slotCount := by
  rw [← d.slotCount_delete (d.position index), removeAt_eq]
  split
  · split <;> simp_all
  · rw [slotCount_delete]

@[simp] theorem slotCount_removeChosen (choose : Nat → Nat) (d : Deque α) :
    (d.removeChosen choose).2.slotCount = d.slotCount := by
  rw [← d.slotCount_removeAt (choose d.length), removeChosen]
  split
  · rw [slotCount_removeAt]
  · split <;> simp_all

@[simp] theorem slotCount_removeFound (found : Option Nat) (d : Deque α) :
    (d.removeFound found).2.slotCount = d.slotCount := by
  cases found with
  | none => rfl
  | some p =>
      rw [← d.slotCount_delete p, removeFound_some]
      split <;> simp_all

@[simp] theorem slotCount_removeFirstOccurrence [BEq α] (x : α) (d : Deque α) :
    (d.removeFirstOccurrence x).2.slotCount = d.slotCount := by
  rw [removeFirstOccurrence_eq, slotCount_removeFound]

@[simp] theorem slotCount_removeLastOccurrence [BEq α] (x : α) (d : Deque α) :
    (d.removeLastOccurrence x).2.slotCount = d.slotCount := by
  rw [removeLastOccurrence_eq, slotCount_removeFound]

theorem size_slide (slots : Slots α) (write read : Nat) (doomed : List Bool) :
    (slide slots write read doomed).1.size = slots.size := by
  induction doomed generalizing slots write read with
  | nil => rfl
  | cons gone doomed ih =>
      cases gone with
      | true =>
          rw [slide_doomed]
          exact (ih ..).trans (Slots.size_put ..)
      | false =>
          rw [slide_kept]
          exact (ih ..).trans (Slots.size_swap ..)

@[simp] theorem slotCount_compact (plan : RemovalPlan) (d : Deque α) :
    (d.compact plan).slotCount = d.slotCount := by
  rw [compact_eq]
  exact size_slide ..

@[simp] theorem slotCount_removeWhere (predicate : Callback σ α Bool) (d : Deque α) (s : σ) :
    (d.removeWhere predicate s).1.2.slotCount = d.slotCount := by
  rw [removeWhere]
  split
  · rfl
  · rfl
  · exact slotCount_compact ..

@[simp] theorem slotCount_replaceAll (operator : Callback σ α α) (d : Deque α) (s : σ) :
    (d.replaceAll operator s).1.2.slotCount = d.slotCount := by
  rw [replaceAll]
  dsimp only
  split
  · exact Slots.size_fill ..
  · exact Slots.size_fill ..

theorem Holds.slotCount_sortBy (h : d.Holds xs) (compare : Comparison σ α) (s : σ) :
    (d.sortBy compare s).1.2.slotCount = d.slotCount := by
  obtain ⟨way, sorts⟩ := h.sortWith sound_sortList
  obtain ⟨fault, sorted, s', slots', answer, -, size, -⟩ := sorts compare s
  rw [Deque.sortBy, answer]
  exact size

/-! ### Calls that may need a larger buffer -/

/-- A growth by so many slots is a growth for one element fewer than there will be slots. -/
theorem Stores.sized_grow (h : d.Stores xs) (hn : 0 < needed)
    (ha : asked + 1 = d.slotCount + needed) :
    Sized a asked d (d.grow a needed).2 := by
  have head := h.head_lt
  by_cases served : ∃ count, d.grownSlotCount a needed = .ok count ∧ a.grants count = true
  · obtain ⟨count, answer, granted⟩ := served
    obtain ⟨d', grew, -, size, -⟩ := h.grow_of_granted hn answer granted
    have grown := grown_of_grownSlotCount answer hn
    rw [← ha, ← size] at grown
    rw [grew]
    exact .grown (by rw [capacity]; omega) grown
  · have refused : ∀ count, d.grownSlotCount a needed = .ok count → a.grants count = false := by
      intro count answer
      apply Bool.eq_false_iff.2
      intro granted
      exact served ⟨count, answer, granted⟩
    obtain ⟨e, -, same⟩ := grow_of_refused refused
    rw [same]
    exact .same rfl

theorem Holds.sized_tryPushFront (h : d.Holds xs) :
    Sized a (xs.length + 1) d (d.tryPushFront a x).2 := by
  have filled := h.filledFront (x := x)
  have size := slotCount_filledFront x d
  rw [tryPushFront_eq]
  split
  · next last =>
      rw [filled.head_eq_tail_iff (List.cons_ne_nil x xs), List.length_cons] at last
      have sized : Sized a (xs.length + 1) _ _ := filled.sized_grow Nat.one_pos (by omega)
      apply sized.congr size.symm
      generalize (d.filledFront x).grow a 1 = outcome
      obtain ⟨_ | _, full⟩ := outcome
      · exact Slots.size_put ..
      · rfl
  · exact .same size

theorem Holds.sized_tryPushBack (h : d.Holds xs) :
    Sized a (xs.length + 1) d (d.tryPushBack a x).2 := by
  have filled := h.filledBack (x := x)
  have size := slotCount_filledBack x d
  rw [tryPushBack_eq]
  split
  · next last =>
      rw [filled.head_eq_tail_iff (by simp), List.length_append, List.length_singleton] at last
      have sized : Sized a (xs.length + 1) _ _ := filled.sized_grow Nat.one_pos (by omega)
      apply sized.congr size.symm
      generalize (d.filledBack x).grow a 1 = outcome
      obtain ⟨_ | _, full⟩ := outcome
      · exact Slots.size_put ..
      · rfl
  · exact .same size

/-- A fresh buffer of the size that growth asks for. -/
theorem Holds.sized_relayout (h : d.Holds xs) (index : Nat) (ys : List α)
    (answer : d.grownSlotCount a needed = .ok count) (hn : 0 < needed)
    (ha : xs.length + ys.length + 1 = d.slotCount + needed) :
    Sized a (xs.length + ys.length) d (d.relayout a count index ys).2 := by
  have length := h.length_lt
  have grown := grown_of_grownSlotCount answer hn
  cases granted : a.grants count with
  | true =>
      obtain ⟨d', moved, -, -, size⟩ := h.relayout_of_granted index ys granted
        (by have := grown.enough; omega)
      rw [← ha, ← size] at grown
      rw [moved]
      exact .grown (by rw [capacity]; omega) grown
  | false =>
      rw [relayout_of_refused granted]
      exact .same rfl

theorem Holds.sized_insertAt (h : d.Holds xs) (hk : k ≤ xs.length) :
    Sized a (xs.length + 1) d (d.insertAt a (d.position k) x).2 := by
  obtain ⟨front, back⟩ := h.steps_position hk
  have length := h.length_lt
  simp only [Deque.insertAt_eq, front, back]
  split
  · cases answer : d.grownSlotCount a 1 with
    | error e => exact .same rfl
    | ok count =>
        have sized := h.sized_relayout k [x] answer Nat.one_pos (by simp; omega)
        apply sized.congr rfl
        dsimp only
        generalize d.relayout a count k [x] = outcome
        obtain ⟨_ | _, full⟩ := outcome
        · rfl
        · rfl
  · split
    · exact .same ((Slots.size_put ..).trans (Slots.size_shiftFrontward ..))
    · exact .same ((Slots.size_put ..).trans (Slots.size_shiftBackward ..))

theorem Holds.sized_insertRange (h : d.Holds xs) (index : Nat) (ys : List α) :
    Sized a (xs.length + ys.length) d (d.insertRange a index ys).2 := by
  have length := h.length_lt
  simp only [Deque.insertRange_eq, h.length_eq]
  split
  · exact .same rfl
  · split
    · cases answer : d.grownSlotCount a (xs.length + ys.length + 1 - d.slotCount) with
      | error e => exact .same rfl
      | ok count =>
          have sized := h.sized_relayout index ys answer (by omega) (by omega)
          apply sized.congr rfl
          dsimp only
          generalize d.relayout a count index ys = outcome
          obtain ⟨_ | _, full⟩ := outcome
          · rfl
          · rfl
    · split
      · exact .same ((Slots.size_fill ..).trans (Slots.size_shiftFrontward ..))
      · exact .same ((Slots.size_fill ..).trans (Slots.size_shiftBackward ..))

theorem Holds.sized_ensureCapacity (h : d.Holds xs) (capacity : Nat) :
    Sized a capacity d (d.ensureCapacity a capacity).2 := by
  rw [Deque.ensureCapacity_eq]
  split
  · exact .same rfl
  · split
    · exact h.toStores.sized_grow (by omega) (by omega)
    · exact .same rfl

/-- Elements that are added one by one, as many as find room. -/
theorem Holds.sized_pushAll (h : d.Holds xs) (ys : List α) :
    ∃ zs, (d.pushAll a ys).2.2.Holds zs ∧ xs.length ≤ zs.length ∧
      Sized a zs.length d (d.pushAll a ys).2.2 := by
  induction ys generalizing d xs with
  | nil => exact ⟨xs, h, Nat.le_refl _, .same rfl⟩
  | cons y ys ih =>
      rw [Deque.pushAll_cons]
      have first := h.sized_tryPushBack (a := a) (x := y)
      by_cases room : d.Room a (xs.length + 1)
      · obtain ⟨d₁, pushed, holds⟩ := h.tryPushBack (x := y) room
        rw [pushed] at first ⊢
        obtain ⟨zs, holds', more, rest⟩ := ih holds
        rw [List.length_append, List.length_singleton] at more
        have bound := holds.length_lt
        rw [List.length_append, List.length_singleton] at bound
        have both := first.trans rest bound holds'.length_lt
        rw [Nat.max_eq_right more] at both
        exact ⟨zs, holds', by omega, both⟩
      · obtain ⟨e, -, refused⟩ := h.tryPushBack_refused (x := y) room
        rw [refused]
        exact ⟨xs, h, Nat.le_refl _, .same rfl⟩

/-- What an extension that got its reservation leaves is what the single additions leave. -/
theorem extend_of_ensured {d₁ : Deque α} {claimed : Nat} (source : Trace α)
    (h : d.ensureCapacity a (min (d.length + claimed) wordMax) = (.ok (), d₁)) :
    (d.extend a claimed source).2.2 = (d₁.pushAll a source.values).2.2 := by
  rw [extend_eq, h]
  dsimp only
  generalize d₁.pushAll a source.values = outcome
  obtain ⟨_ | _, rest, d'⟩ := outcome
  · rfl
  · cases source.fault <;> rfl

theorem Holds.sized_extend (h : d.Holds xs) (claimed : Nat) (source : Trace α) :
    Sized a (max (min (d.length + claimed) wordMax) (d.extend a claimed source).2.2.length) d
      (d.extend a claimed source).2.2 := by
  by_cases served : min (d.length + claimed) wordMax < wordMax ∧
      d.Room a (min (d.length + claimed) wordMax)
  · have reserved := h.sized_ensureCapacity (a := a) (min (d.length + claimed) wordMax)
    obtain ⟨d₁, ensured, holds, reached⟩ := h.ensureCapacity served.1 served.2
    rw [ensured] at reserved
    obtain ⟨zs, holds', -, pushed⟩ := holds.sized_pushAll (a := a) source.values
    have occupied := holds.slotCount_pos
    have enough : min (d.length + claimed) wordMax < d₁.slotCount := by
      rw [capacity] at reached
      exact Nat.lt_of_le_pred occupied reached
    rw [extend_of_ensured source ensured, holds'.length_eq]
    exact reserved.trans pushed enough holds'.length_lt
  · obtain ⟨e, -, refused⟩ := ensureCapacity_of_not_room served
    rw [Deque.extend_eq, refused]
    exact .same rfl

theorem Holds.slotCount_tryTrimToSize (h : d.Holds xs) :
    (d.tryTrimToSize a).2.slotCount ≤ d.slotCount := by
  rw [Deque.tryTrimToSize_eq, h.length_eq]
  split
  · next spare =>
      cases granted : a.grants (xs.length + 1) with
      | true =>
          obtain ⟨d', moved, -, -, size⟩ := h.relayout_of_granted xs.length [] granted (by simp)
          rw [moved]
          exact size ▸ Nat.le_of_lt spare
      | false => exact Nat.le_of_eq (by rw [relayout_of_refused granted])
  · exact Nat.le_refl _

theorem snd_orFault {β : Type w} (outcome : Except Error β × Deque α) :
    (orFault outcome).2 = outcome.2 := by
  obtain ⟨_ | _, d⟩ := outcome <;> rfl

theorem snd_addAll (source : Trace α) : (d.addAll a source).2 = (d.tryAddAll a source).2 := by
  rw [addAll]
  generalize d.tryAddAll a source = outcome
  obtain ⟨_ | answer, d'⟩ := outcome
  · rfl
  · exact snd_orFault (answer, d')

/-! ### Additions, by the number of elements that there are in the end -/

theorem Holds.sized_pushFront (h : d.Holds xs) :
    Sized a (d.tryPushFront a x).2.length d (d.tryPushFront a x).2 := by
  apply h.sized_tryPushFront.of_length
  by_cases room : d.Room a (xs.length + 1)
  · obtain ⟨d', pushed, holds⟩ := h.tryPushFront (x := x) room
    rw [pushed]
    exact .inr holds.length_eq
  · obtain ⟨e, -, refused⟩ := h.tryPushFront_refused (x := x) room
    rw [refused]
    exact .inl rfl

theorem Holds.sized_pushBack (h : d.Holds xs) :
    Sized a (d.tryPushBack a x).2.length d (d.tryPushBack a x).2 := by
  apply h.sized_tryPushBack.of_length
  by_cases room : d.Room a (xs.length + 1)
  · obtain ⟨d', pushed, holds⟩ := h.tryPushBack (x := x) room
    rw [pushed, holds.length_eq, List.length_append]
    exact .inr rfl
  · obtain ⟨e, -, refused⟩ := h.tryPushBack_refused (x := x) room
    rw [refused]
    exact .inl rfl

theorem Holds.sized_insertedAt (h : d.Holds xs) (hk : k ≤ xs.length) :
    Sized a (d.insertAt a (d.position k) x).2.length d (d.insertAt a (d.position k) x).2 := by
  apply (h.sized_insertAt hk).of_length
  by_cases room : d.Room a (xs.length + 1)
  · obtain ⟨shift, d', inserted, holds, -⟩ := h.insertAt (x := x) hk room
    rw [inserted, holds.length_eq, List.length_insertIdx_of_le_length hk]
    exact .inr rfl
  · obtain ⟨e, -, refused⟩ := h.insertAt_refused (x := x) hk room
    rw [refused]
    exact .inl rfl

theorem Holds.sized_insertedRange (h : d.Holds xs) (hi : index ≤ xs.length) (ys : List α) :
    Sized a (d.insertRange a index ys).2.length d (d.insertRange a index ys).2 := by
  apply (h.sized_insertRange index ys).of_length
  by_cases room : d.Room a (xs.length + ys.length)
  · obtain ⟨d', inserted, holds⟩ := h.insertRange ys hi room
    rw [inserted, holds.length_eq, length_splice ys hi]
    exact .inr rfl
  · obtain ⟨e, -, refused⟩ := h.insertRange_refused index room
    rw [refused]
    exact .inl rfl

theorem Holds.sized_insert (h : d.Holds xs) (index : Nat) :
    Sized a (d.insert a index x).2.length d (d.insert a index x).2 := by
  rw [Deque.insert_eq, h.length_eq]
  split
  · exact .same rfl
  · next inside =>
      have sized := h.sized_insertedAt (a := a) (x := x) (Nat.le_of_not_lt inside)
      generalize d.insertAt a (d.position index) x = outcome at sized ⊢
      obtain ⟨_ | _, d'⟩ := outcome
      · exact sized
      · exact sized

theorem Holds.sized_insertAll (h : d.Holds xs) (index : Nat) (source : Trace α) :
    Sized a (d.insertAll a index source).2.length d (d.insertAll a index source).2 := by
  rw [Deque.insertAll_eq, h.length_eq]
  split
  · exact .same rfl
  · next inside =>
      cases source.complete with
      | error fault => exact .same rfl
      | ok ys => exact h.sized_insertedRange (Nat.le_of_not_lt inside) ys

theorem Holds.sized_tryAddAll (h : d.Holds xs) (source : Trace α) :
    Sized a (d.tryAddAll a source).2.length d (d.tryAddAll a source).2 := by
  rw [Deque.tryAddAll_eq]
  cases source.complete with
  | error fault => exact .same rfl
  | ok ys => exact h.sized_insertedRange (Nat.le_of_eq h.length_eq) ys

end Deque

end RingDeque
