import RingDeque.Proofs.Words.Cursor
import RingDeque.Proofs.Words.Removal
import RingDeque.Proofs.Words.Sort
import RingDeque.Proofs.Words.Splitter

/-!
# Arithmetic is exact

Everything that a deque does is a calculation of sums and differences. On words it comes to what it
comes to for numbers without bound: none of the sums and differences on the way leaves the words.
Nothing is asked of indices, counts, capacities and claims of sources, nor of what callbacks answer.
Of a source that is read to its end it is asked that it has less than `2 ^ 63` elements.
-/

namespace RingDeque

variable {σ : Type u} {α : Type v}

namespace Deque

/-- The calls that change a deque, and access by position. -/
structure ExactUpdates (σ : Type u) (a : Allocator) (d : Deque α) : Prop where
  length : d.lengthOnWords.Computes d.length
  tryPushFront : ∀ x, (d.tryPushFrontOnWords a x).Computes (d.tryPushFront a x)
  tryPushBack : ∀ x, (d.tryPushBackOnWords a x).Computes (d.tryPushBack a x)
  pushFront : ∀ x, ((d.tryPushFrontOnWords a x).map orFault).Computes (d.pushFront a x)
  pushBack : ∀ x, ((d.tryPushBackOnWords a x).map orFault).Computes (d.pushBack a x)
  popFront : d.popFrontOnWords.Computes d.popFront
  popBack : d.popBackOnWords.Computes d.popBack
  get? : ∀ index, (d.get?OnWords index).Computes (d.get? index)
  get : ∀ index, (d.getOnWords index).Computes (d.get index)
  set : ∀ index x, (d.setOnWords index x).Computes (d.set index x)
  insert : ∀ index x, (d.insertOnWords a index x).Computes (d.insert a index x)
  removeAt : ∀ index, (d.removeAtOnWords index).Computes (d.removeAt index)
  insertAll : ∀ index (source : Trace α), source.values.length < 2 ^ 63 →
    (d.insertAllOnWords a index source).Computes (d.insertAll a index source)
  tryAddAll : ∀ source : Trace α, source.values.length < 2 ^ 63 →
    (d.tryAddAllOnWords a source).Computes (d.tryAddAll a source)
  ensureCapacity :
    ∀ capacity, (d.ensureCapacityOnWords a capacity).Computes (d.ensureCapacity a capacity)
  extend : ∀ claimed source, (d.extendOnWords a claimed source).Computes (d.extend a claimed source)
  tryTrimToSize : (d.tryTrimToSizeOnWords a).Computes (d.tryTrimToSize a)
  trimToSize : ((d.tryTrimToSizeOnWords a).map Prod.snd).Computes (d.trimToSize a)
  removeWhere : ∀ (predicate : Callback σ α Bool) s,
    (d.removeWhereOnWords predicate s).Computes (d.removeWhere predicate s)
  sortWith : ∀ sorter : Sorter.{u, v} σ, sorter.Sound → ∀ compare s,
    (d.sortWithOnWords sorter compare s).Computes (d.sortWith sorter compare s)
  sortBy : ∀ (compare : Comparison σ α) s,
    (d.sortWithOnWords sortList compare s).Computes (d.sortBy compare s)

/-- Search, and removal of what it finds. -/
structure ExactSearch [BEq α] (d : Deque α) : Prop where
  findSlot : ∀ x, (d.findSlotOnWords x).Computes (d.findSlot? x)
  findLastSlot : ∀ x, (d.findLastSlotOnWords x).Computes (d.findLastSlot? x)
  indexOf : ∀ x, (d.indexOfOnWords x).Computes (d.indexOf? x)
  lastIndexOf : ∀ x, (d.lastIndexOfOnWords x).Computes (d.lastIndexOf? x)
  removeFirstOccurrence :
    ∀ x, (d.removeFirstOccurrenceOnWords x).Computes (d.removeFirstOccurrence x)
  removeLastOccurrence : ∀ x, (d.removeLastOccurrenceOnWords x).Computes (d.removeLastOccurrence x)

/-- Traversals and splitters, through any conversation and any division of labour. -/
structure ExactReading (σ : Type u) (d : Deque α) : Prop where
  traversal : d.traversalOnWords.Computes d.traversal
  serveAll :
    ∀ requests,
      (d.traversal.serveAllOnWords requests).Computes (Traversal.serveAll d.traversal requests)
  leaves :
    ∀ tree, (RingTraversal.leavesOnWords tree d.traversal).Computes
      (RingTraversal.leaves tree d.traversal)
  splitters : ∀ calls : List (Nat × Splitter.Call σ α),
    (Row.askAllOnWords (Splitter.callOnWords d) calls [d.splitter]).Computes
      (Row.askAll (Splitter.call d) calls [d.splitter])

/-- Cursors, from where they are set up through any conversation. That of a one-way cursor may begin
at any slot of the buffer; a two-way cursor agrees with the deque, wherever it was set up. -/
structure ExactCursors (σ : Type u) (d : Deque α) : Prop where
  start : ∀ direction,
    (OneWayCursor.startOnWords direction d).Computes (.start direction d) ∧
    (OneWayCursor.start direction d).Inside d
  oneWay : ∀ c : OneWayCursor, c.Inside d → ∀ calls : List (OneWayCursor.Call σ α),
    (callAllOnWords OneWayCursor.callOnWords calls (c, d)).Computes
      (callAll (fun call (c, d) => OneWayCursor.call call c d) calls (c, d))
  cursorAt : ∀ index, (d.cursorAtOnWords index).Computes (d.cursorAt index) ∧
    ∀ c, d.cursorAt index = .ok c → c.Placed α ∧ c.agrees d = true
  twoWay : ∀ c : TwoWayCursor, c.Placed α → c.agrees d = true →
    ∀ calls : List (TwoWayCursor.Call σ α),
    (callAllOnWords TwoWayCursor.callOnWords calls (c, d)).Computes
      (callAll (fun call (c, d) => TwoWayCursor.call call c d) calls (c, d))

variable {a : Allocator} {d : Deque α}

theorem WellFormed.exactUpdates (h : d.WellFormed) (hm : d.slotCount < 2 ^ 63) :
    d.ExactUpdates σ a where
  length := h.computes_length hm
  tryPushFront := h.computes_tryPushFront hm
  tryPushBack := h.computes_tryPushBack hm
  pushFront x := (h.computes_tryPushFront hm x).map orFault
  pushBack x := (h.computes_tryPushBack hm x).map orFault
  popFront := h.computes_popFront hm
  popBack := h.computes_popBack hm
  get? := h.computes_get? hm
  get := h.computes_get hm
  set := h.computes_set hm
  insert := h.computes_insert hm
  removeAt := h.computes_removeAt hm
  insertAll index _ few := h.computes_insertAll hm index few
  tryAddAll _ few := h.computes_tryAddAll hm few
  ensureCapacity := computes_ensureCapacity h.head_lt hm
  extend := h.computes_extend hm
  tryTrimToSize := h.computes_tryTrimToSize hm
  trimToSize := (h.computes_tryTrimToSize hm).map Prod.snd
  removeWhere := h.computes_removeWhere hm
  sortWith _ sound := h.computes_sortWith hm sound
  sortBy := h.computes_sortWith hm sound_sortList

theorem WellFormed.exactSearch [BEq α] (h : d.WellFormed) (hm : d.slotCount < 2 ^ 63) :
    d.ExactSearch where
  findSlot := h.computes_findSlot hm
  findLastSlot := h.computes_findLastSlot hm
  indexOf := h.computes_indexOf hm
  lastIndexOf := h.computes_lastIndexOf hm
  removeFirstOccurrence := h.computes_removeFirstOccurrence hm
  removeLastOccurrence := h.computes_removeLastOccurrence hm

theorem WellFormed.exactReading (h : d.WellFormed) (hm : d.slotCount < 2 ^ 63) :
    d.ExactReading σ where
  traversal := h.computes_traversal hm
  serveAll := (h.inside_traversal hm).computes_serveAll
  leaves := (h.inside_traversal hm).computes_leaves
  splitters := Splitter.Inside.computes_row h hm

theorem WellFormed.exactCursors (h : d.WellFormed) (hm : d.slotCount < 2 ^ 63) :
    d.ExactCursors σ where
  start direction :=
    ⟨OneWayCursor.computes_start h hm direction, OneWayCursor.inside_start h direction⟩
  oneWay _ inside := inside.computes_callAll h hm
  cursorAt index := by
    refine ⟨h.computes_cursorAt hm index, ?_⟩
    intro c answer
    refine ⟨TwoWayCursor.placed_of_cursorAt h answer, ?_⟩
    rw [Deque.cursorAt_eq] at answer
    split at answer
    · contradiction
    · cases answer
      simp [TwoWayCursor.agrees]
  twoWay _ placed agrees := placed.computes_callAll agrees h hm

/-- On a deque in order, in a buffer that the allocator could have given, no operation overflows a
word or goes below zero, whatever its arguments are. Stopping at such a sum or difference and going
on with its remainder both come to the exact result. -/
theorem WellFormed.arithmetic_exact (h : d.WellFormed) (size : d.slotCount ≤ a.maxSlots) :
    d.ExactUpdates σ a ∧ (∀ [BEq α], d.ExactSearch) ∧ d.ExactReading σ ∧ d.ExactCursors σ := by
  have hm : d.slotCount < 2 ^ 63 := Nat.lt_of_le_of_lt size a.maxSlots_lt
  exact ⟨h.exactUpdates hm, h.exactSearch hm, h.exactReading hm, h.exactCursors hm⟩

/-- A full buffer whose elements run past its end. -/
theorem WellFormed.arithmetic_exact_full :
    let a : Allocator := .bounded 8 1000
    let d : Deque Nat := ⟨#[some 3, none, some 1, some 2], 2, 1⟩
    d.WellFormed ∧ d.slotCount ≤ a.maxSlots ∧
      d.ExactUpdates Unit a ∧ (∀ [BEq Nat], d.ExactSearch) ∧ d.ExactReading Unit ∧
        d.ExactCursors Unit := by
  intro a d
  have ordered : d.WellFormed := Deque.isWellFormed_iff.1 (by decide)
  have size : d.slotCount ≤ a.maxSlots := by decide
  exact ⟨ordered, size, ordered.arithmetic_exact size⟩

end Deque

end RingDeque
